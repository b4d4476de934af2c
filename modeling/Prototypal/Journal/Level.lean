/-!
# Levels, components and thresholds

Every event of the journal has a level and comes from a component.  Thresholds say up to which
level the events of each component are let through.

The threshold of an event is found by its *target*, a text that names the component: the longest
entry that the target starts with decides, and the general threshold if there is none.
-/

namespace Prototypal

/-- How important an event is, from most to least. -/
inductive Level where
  | error
  | warn
  | info
  | debug
  | trace
deriving DecidableEq, Repr

namespace Level

/-- All levels, from most to least important. -/
def all : List Level :=
  [error, warn, info, debug, trace]

/-- The name of a level. -/
def name : Level → String
  | error => "ERROR"
  | warn => "WARN"
  | info => "INFO"
  | debug => "DEBUG"
  | trace => "TRACE"

/-- The name of a level in lower case. -/
def lowerName : Level → String
  | error => "error"
  | warn => "warn"
  | info => "info"
  | debug => "debug"
  | trace => "trace"

/-- The level of a name in lower case. -/
def ofLowerName? (s : String) : Option Level :=
  all.find? fun l => l.lowerName == s

/-- The rank of a level, the most important first. -/
def rank : Level → Nat
  | error => 1
  | warn => 2
  | info => 3
  | debug => 4
  | trace => 5

/-- Whether an event of the level is let through by a threshold. -/
def passes (l threshold : Level) : Bool :=
  l.rank ≤ threshold.rank

end Level

/-- The parts of the runtime that write to the journal. -/
inductive Component where
  | store
  | dispatch
  | closure
  | escape
  | validation
deriving DecidableEq, Repr

namespace Component

/-- All components. -/
def all : List Component :=
  [store, dispatch, closure, escape, validation]

/-- The name of a component. -/
def name : Component → String
  | store => "store"
  | dispatch => "dispatch"
  | closure => "closure"
  | escape => "escape"
  | validation => "validation"

/-- The target that names a component in the journal. -/
def target (c : Component) : String :=
  "quest::" ++ c.name

end Component

/-- Up to which level events are let through: in general, and for single components. -/
structure Thresholds where
  general : Level
  store : Option Level
  dispatch : Option Level
  closure : Option Level
  escape : Option Level
  validation : Option Level
deriving DecidableEq, Repr

namespace Thresholds

/-- The thresholds that hold unless others are given. -/
def standard : Thresholds where
  general := .info
  store := none
  dispatch := none
  closure := none
  escape := none
  validation := some .warn

/-- The threshold given for a single component. -/
def own? (t : Thresholds) : Component → Option Level
  | .store => t.store
  | .dispatch => t.dispatch
  | .closure => t.closure
  | .escape => t.escape
  | .validation => t.validation

/-- Gives a component a threshold of its own, or none. -/
def setOwn (t : Thresholds) (c : Component) (l : Option Level) : Thresholds :=
  match c with
  | .store => { t with store := l }
  | .dispatch => { t with dispatch := l }
  | .closure => { t with closure := l }
  | .escape => { t with escape := l }
  | .validation => { t with validation := l }

/-- The threshold of a component. -/
def levelFor (t : Thresholds) (c : Component) : Level :=
  (t.own? c).getD t.general

/-- One entry per component: its target and its threshold. -/
def entries (t : Thresholds) : List (String × Level) :=
  Component.all.map fun c => (c.target, t.levelFor c)

/-- The longer of two entries, the earlier one if they are equally long. -/
def longer (best : Option (String × Level)) (e : String × Level) : Option (String × Level) :=
  match best with
  | some b => if b.1.length < e.1.length then some e else some b
  | none => some e

/-- The threshold of a target. -/
def levelAt (t : Thresholds) (target : String) : Level :=
  let candidates := t.entries.filter fun e => e.1.toList.isPrefixOf target.toList
  match candidates.foldl longer none with
  | some e => e.2
  | none => t.general

/-- Whether events of a level are let through for a target. -/
def enables (t : Thresholds) (target : String) (l : Level) : Bool :=
  l.passes (t.levelAt target)

/-- The levels that are let through for a target. -/
def enabledAt (t : Thresholds) (target : String) : List Level :=
  Level.all.filter (t.enables target)

end Thresholds

end Prototypal
