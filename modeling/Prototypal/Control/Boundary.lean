import Prototypal.Control.State

/-!
# Boundaries and returns

`attempt` runs a body inside a boundary, which a new marker identifies.  A return raises an
escape that travels outward through the enclosing boundaries until it lands:

* an escape to a marker lands at the boundary of that marker;
* an escape over `n` levels lands at the `n`-th boundary, each boundary before counting one off.

The boundary is left before the escape is looked at, and it is left on every way out.
-/

namespace Prototypal

/-- What an escape does at the boundary of a marker: it lands, or it goes on. -/
def Escape.land (e : Escape) (m : Marker) : Run ObjectId :=
  match e.target with
  | .marker t =>
    if t = m then do
      note (.landedOnMarker m)
      return e.value
    else throw (.escape e)
  | .levels n =>
    if n ≤ 1 then do
      note (.landed m)
      return e.value
    else do
      note (.passed m (n - 1))
      throw (.escape { e with target := .levels (n - 1) })

/-- Hands an escape out of a computation to a handler. -/
def onEscape (act : Run α) (handle : Escape → Run α) : Run α := fun s =>
  match act s with
  | .error (.escape e) s' => handle e s'
  | r => r

/-- Enters the boundary of a marker. -/
def enterBoundary (m : Marker) : Run Unit := do
  modify fun s => { s with boundaries := m :: s.boundaries }
  note (.entered m (← get).boundaries.length)

/-- Leaves the innermost boundary, which is that of the marker. -/
def leaveBoundary (m : Marker) (s : State) : State :=
  { s with boundaries := s.boundaries.tail, journal := .left m :: s.journal }

/-- Runs a body, which is given the marker object, inside a new boundary. -/
def attempt (body : ObjectId → Run ObjectId) : Run ObjectId := do
  let m ← nextMarker
  let token ← make (.marker m)
  enterBoundary m
  onEscape (ensure (body token) (leaveBoundary m)) fun e => e.land m

/-- Leaves that many boundaries with a value; none counts as one. -/
def returnLevels (n : Nat) (v : ObjectId) : Run α := do
  let n := max n 1
  let active := (← get).boundaries.length
  if active < n then fail (.unhandled (.levels (n - active)))
  else
    note (.returning n)
    throw (.escape ⟨.levels n, v⟩)

/-- Leaves the boundary of a marker object, and all inside it, with a value. -/
def returnTo (token v : ObjectId) : Run α := do
  let p ← payloadOf token
  match p.marker? with
  | none => fail (.mismatch .leave [.marker] p.kind)
  | some m =>
    if (← get).boundaries.contains m then
      note (.returningTo m)
      throw (.escape ⟨.marker m, v⟩)
    else fail (.unhandled (.marker m))

/-- Turns an escape into a fault. -/
def settle (act : Run α) : Run α :=
  onEscape act fun e => fail (.unhandled e.target)

end Prototypal
