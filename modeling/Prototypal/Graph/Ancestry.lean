import Prototypal.Graph.Heap

/-!
# Walking the ancestors

An ancestor walk is a depth-first search: an object, then its stepparents in order, each with all
of its ancestors, then its parent with all of its ancestors.  The first hit ends the walk.

A walk enters each object at most once, so shared and cyclic ancestors cost one visit.  It goes
at most a given number of hops deep: an object that is that deep and is no hit is *cut*, and its
ancestors are not asked.

* `Trail` — what a walk has done so far: the objects it entered and those it was cut at.
* `Trail.above` — the walk through the ancestors of an object, without the object itself.
* `Trail.seek` — the walk that looks for an object.  It compares before it enters, so the object
  that it looks for is never entered.
* `Heap.resolve?`, `Heap.resolveAbove?` — lookup of a key, with and without the own entry.
* `Heap.isA` — membership in the ancestor graph.
-/

namespace Prototypal

/-- What an ancestor walk has done so far, newest first. -/
structure Trail where
  entered : List ObjectId
  cuts : List ObjectId

namespace Trail

/-- A walk that has not begun. -/
def start : Trail := ⟨[], []⟩

/-- Notes that an object has been entered. -/
def enter (t : Trail) (o : ObjectId) : Trail :=
  { t with entered := o :: t.entered }

/-- Notes that the walk was cut at an object. -/
def cut (t : Trail) (o : ObjectId) : Trail :=
  { t with cuts := o :: t.cuts }

/-- Enters an object, unless the walk has been there.  If it is no hit, `climb` goes on to its
ancestors. -/
def visit (hit : ObjectId → Option α) (climb : Trail → ObjectId → Option α × Trail)
    (t : Trail) (o : ObjectId) : Option α × Trail :=
  if o ∈ t.entered then (none, t)
  else
    match hit o with
    | some a => (some a, t.enter o)
    | none => climb (t.enter o) o

/-- Tries objects in order until one yields a hit. -/
def firstOf (attempt : Trail → ObjectId → Option α × Trail) :
    Trail → List ObjectId → Option α × Trail
  | t, [] => (none, t)
  | t, o :: os =>
    match attempt t o with
    | (some a, t') => (some a, t')
    | (none, t') => firstOf attempt t' os

/-- Walks the ancestors of an object, as many hops up as remain. -/
def above (ancestors : ObjectId → List ObjectId) (hit : ObjectId → Option α) :
    Nat → Trail → ObjectId → Option α × Trail
  | 0, t, o => (none, t.cut o)
  | hops + 1, t, o => firstOf (visit hit (above ancestors hit hops)) t (ancestors o)

/-- Walks an object and its ancestors. -/
def walk (ancestors : ObjectId → List ObjectId) (hit : ObjectId → Option α)
    (hops : Nat) (o : ObjectId) : Option α × Trail :=
  visit hit (above ancestors hit hops) start o

/-- Compares an object with the one that is looked for.  If it is another one, it is entered, unless
the walk has been there, and `climb` goes on to its ancestors. -/
def meet (target : ObjectId) (climb : Trail → ObjectId → Bool × Trail) (t : Trail) (o : ObjectId) :
    Bool × Trail :=
  if o = target then (true, t)
  else if o ∈ t.entered then (false, t)
  else climb (t.enter o) o

/-- Tries objects in order until one says yes. -/
def anyOf (attempt : Trail → ObjectId → Bool × Trail) : Trail → List ObjectId → Bool × Trail
  | t, [] => (false, t)
  | t, o :: os =>
    match attempt t o with
    | (true, t') => (true, t')
    | (false, t') => anyOf attempt t' os

/-- Looks for an object in another object and its ancestors, as many hops up as remain. -/
def seek (ancestors : ObjectId → List ObjectId) (target : ObjectId) :
    Nat → Trail → ObjectId → Bool × Trail
  | 0 => meet target fun t o => (false, t.cut o)
  | hops + 1 => meet target fun t o => anyOf (seek ancestors target hops) t (ancestors o)

end Trail

/-- A value that a lookup found, and the object that holds it. -/
structure Found where
  holder : ObjectId
  value : ObjectId
deriving DecidableEq, Repr

namespace Heap

/-- The own entry of an object under an ordinary key, as a lookup reports it. -/
def own? (h : Heap) (k : Key) (o : ObjectId) : Option Found :=
  ((h.slots o).find? k).map fun v => ⟨o, v⟩

/-- Looks an ordinary key up, in the object and then in its ancestors. -/
def resolve? (h : Heap) (hops : Nat) (o : ObjectId) (k : Key) : Option Found × Trail :=
  Trail.walk h.ancestors (h.own? k) hops o

/-- Looks an ordinary key up in the ancestors of an object only. -/
def resolveAbove? (h : Heap) (hops : Nat) (o : ObjectId) (k : Key) : Option Found × Trail :=
  Trail.above h.ancestors (h.own? k) hops (Trail.start.enter o) o

/-- Looks an object up among another object and its ancestors. -/
def isA (h : Heap) (hops : Nat) (o target : ObjectId) : Bool × Trail :=
  Trail.seek h.ancestors target hops .start o

end Heap

end Prototypal
