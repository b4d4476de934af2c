import Prototypal.Access.Violation

/-!
# Faults, escapes and interrupts

Evaluation ends early in one of five ways.  A `Fault` is an error of the runtime.  An `Escape` is
a value on its way out to an enclosing boundary.  Fixing the settings a second time ends the
whole step, and so does a new name that finds the table of names full.  The last way, running out
of gas, is an artefact of a recursion bound that no run reaches.
-/

namespace Prototypal

/-- Where an escape is headed. -/
inductive Target where
  /-- The boundary that many levels out. -/
  | levels (n : Nat)
  /-- The boundary of a marker. -/
  | marker (m : Marker)
deriving DecidableEq, Repr

/-- The wording of the complaint about an escape that no boundary awaits. -/
def Target.complaint : Target → String
  | levels n => "returned " ++ toString n ++ " levels too many"
  | marker m => "returned to try " ++ m.text ++ ", which is not active"

/-- A value on its way out to an enclosing boundary. -/
structure Escape where
  target : Target
  value : ObjectId
deriving DecidableEq, Repr

/-- The errors of the runtime. -/
inductive Fault where
  /-- A write to a key that may not be written. -/
  | readonly (k : Key)
  /-- An attribute met a payload of a kind that it cannot use. -/
  | mismatch (asked : Symbol) (expected : List Kind) (found : Kind)
  /-- An escape that no boundary awaits. -/
  | unhandled (target : Target)
  /-- A broken rule, at the highest strictness. -/
  | invalid (v : Violation)
  /-- Calls were nested too deep. -/
  | tooDeep (limit : Nat)
deriving DecidableEq, Repr

namespace Fault

/-- The word for the kind of a fault. -/
def kind : Fault → String
  | readonly _ => "ReadonlyViolation"
  | mismatch .. => "TypeMismatch"
  | unhandled _ => "UnhandledEscape"
  | invalid _ => "Validation"
  | tooDeep _ => "StackOverflow"

/-- The wording of a fault. -/
def message (names : Names) : Fault → String
  | readonly k => "attribute `" ++ k.text names ++ "` is readonly"
  | mismatch a expected found =>
    Names.predefined.text a ++ " didn't return " ++ " or ".intercalate (expected.map Kind.name) ++
      " (got " ++ found.name ++ ")"
  | unhandled target => target.complaint
  | invalid v => "validation failed: " ++ v.message
  | tooDeep limit => "call depth exceeded the limit of " ++ toString limit

end Fault

/-- The ways in which evaluation ends early. -/
inductive Interrupt where
  | escape (e : Escape)
  | fault (f : Fault)
  /-- The settings were to be fixed a second time. -/
  | reconfigured
  /-- A new name did not fit into the table of names. -/
  | overflow
  /-- The recursion bound was reached. -/
  | exhausted
deriving DecidableEq, Repr

/-- The wording of the refusal to fix the settings a second time. -/
def reconfiguredMessage : String :=
  "Config already initialized"

/-- The wording of the refusal to enter a name into a full table. -/
def overflowMessage : String :=
  "symbol table overflow"

end Prototypal
