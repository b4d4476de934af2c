import Prototypal.Script.Eval

/-!
# Sessions

A session runs the steps of a script one after the other in one state.  A step that fails does
not stop the next ones.  Each step is reported with its outcome, what it emitted, and what it
noted in the journal.
-/

namespace Prototypal

/-- What is reported of one step. -/
structure Report where
  /-- The fields that tell how the step ended. -/
  outcome : List (String × Json)
  /-- What the step emitted, in order. -/
  emitted : List Json
  /-- What the step noted, in order, as far as it is shown. -/
  records : List Record

namespace Report

/-- The report of a step that ended in a state. -/
def ofState (shown : Event → Bool) (outcome : List (String × Json)) (s : State) : Report where
  outcome := outcome
  emitted := s.emitted.reverse
  records := (s.journal.reverse.filter shown).map (Event.describe s.names s.heap)

/-- A field that is left out if it is empty. -/
def unlessEmpty (name : String) (items : List Json) : List (String × Json) :=
  if items.isEmpty then [] else [(name, .array items)]

/-- The fields of a report without its records. -/
def plainFields (r : Report) : List (String × Json) :=
  r.outcome ++ unlessEmpty "out" r.emitted

/-- A report as an answer. -/
def toJson (r : Report) : Json :=
  .record (r.plainFields ++ unlessEmpty "logs" (r.records.map Record.toJson))

end Report

/-- Runs one step, with an empty journal and nothing emitted. -/
def runStep (shown : Event → Bool) (e : Expr) (s : State) : Report × State :=
  match evaluate e { s with journal := [], emitted := [] } with
  | .ok v s' => (.ofState shown [("r", v.toJson s'.heap)] s', s')
  | .error i s' => (.ofState shown (i.fields s'.names s'.heap) s', s')

/-- Runs steps one after the other. -/
def runSteps (shown : Event → Bool) : List Expr → State → List Report
  | [], _ => []
  | e :: es, s =>
    let (r, s') := runStep shown e s
    r :: runSteps shown es s'

/-- Runs a script from the beginning. -/
def runScript (shown : Event → Bool) (es : List Expr) : List Report :=
  runSteps shown es .initial

/-- The reports of a script.  Only warnings are shown, unless all events are asked for. -/
def scriptAnswer (everything : Bool) (es : List Expr) : Json :=
  let reports := runScript (fun e => everything || e.level.passes .warn) es
  .record [("steps", .array (reports.map Report.toJson))]

/-- The forms in which a journal is written. -/
inductive JournalFormat where
  /-- Lines of text. -/
  | compact
  /-- One structure per event. -/
  | structured
deriving DecidableEq, Repr

namespace JournalFormat

/-- Whether the written form tells the target of an event. -/
def showsTarget : JournalFormat → Bool
  | compact => false
  | structured => true

/-- The written form of records.  A record whose text has line breaks takes several lines. -/
def write (f : JournalFormat) (rs : List Record) : List Json :=
  match f with
  | compact => rs.flatMap fun r => (r.toLine.splitOn "\n").map .text
  | structured => rs.map Record.toStructured

end JournalFormat

/-- The journal of a script in a written form, as far as thresholds let it through, and the
reports without records. -/
def journalAnswer (f : JournalFormat) (t : Thresholds) (es : List Expr) : Json :=
  let reports := runScript (fun e => e.passes t) es
  .record [
    ("lines", .array (f.write (reports.flatMap Report.records))),
    ("shows_target", .bool f.showsTarget),
    ("steps", .array (reports.map fun r => .record r.plainFields))]

end Prototypal
