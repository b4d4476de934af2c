import Prototypal.Access.Violation
import Prototypal.Graph.View
import Prototypal.Journal.Level

/-!
# Events

What the runtime notes in its journal.  An event names objects, keys and markers by what they
are; `Event.describe` gives it its level, component, message and fields.  The description can be
made at any later time, since neither the text of a symbol nor the payload of an object changes.

A description is written in three ways: `Record.toJson`, the plain answer; `Record.toLine`, a
line of text; `Record.toStructured`, the form in which the message is a field among others.
-/

namespace Prototypal

/-- The writes that sealed slots ignore without an error. -/
inductive SilentWrite where
  | makeReadonly
  | setParent
  | pushStepparent
deriving DecidableEq, Repr

/-- The name of an ignored write. -/
def SilentWrite.name : SilentWrite → String
  | makeReadonly => "make_readonly"
  | setParent => "set_parent"
  | pushStepparent => "push_stepparent"

/-- What is noted in the journal. -/
inductive Event where
  /-- A key became readonly. -/
  | frozen (o : ObjectId) (k : Key)
  /-- A value was to be stored. -/
  | written (o : ObjectId) (k : Key) (value : ObjectId)
  /-- An entry was removed. -/
  | removed (o : ObjectId) (k : Key)
  /-- A write to sealed slots was ignored. -/
  | ignored (o : ObjectId) (write : SilentWrite)
  /-- An ancestor walk was cut at an object, in the lookup of a key if one is given. -/
  | cut (o : ObjectId) (k : Option Key) (limit : Nat)
  /-- An attribute was read. -/
  | read (o : ObjectId) (k : Key) (found : Bool)
  /-- A called attribute did not resolve. -/
  | unanswered (o : ObjectId) (k : Key)
  /-- A super call was resolved to an attribute of the holder. -/
  | superCalled (o : ObjectId) (k : Key) (holder : ObjectId)
  /-- A super call did not resolve. -/
  | superUnanswered (o : ObjectId) (k : Key)
  /-- The base attributes are being put on an object. -/
  | installing (o : ObjectId)
  /-- A closure started to run. -/
  | invoked (bound : Bool) (argumentCount depth : Nat)
  /-- A boundary was entered. -/
  | entered (m : Marker) (depth : Nat)
  /-- A boundary was left. -/
  | left (m : Marker)
  /-- An escape went on past a boundary. -/
  | passed (m : Marker) (remaining : Nat)
  /-- An escape addressed to a boundary arrived there. -/
  | landedOnMarker (m : Marker)
  /-- An escape by levels arrived. -/
  | landed (m : Marker)
  /-- A return over some levels began. -/
  | returning (levels : Nat)
  /-- A return to a boundary began. -/
  | returningTo (m : Marker)
  /-- A rule was broken. -/
  | violated (v : Violation)
deriving DecidableEq, Repr

/-- The value of a field. -/
inductive FieldValue where
  /-- A text that is shown as it is. -/
  | shown (s : String)
  /-- A text that lines show in quotes. -/
  | quoted (s : String)
  | nat (n : Nat)
  | bool (b : Bool)

namespace FieldValue

/-- A field in answers. -/
def toJson : FieldValue → Json
  | shown s => .text s
  | quoted s => .text s
  | nat n => .nat n
  | bool b => .bool b

/-- A field in a line of text. -/
def text : FieldValue → String
  | shown s => s
  | quoted s => Text.quote s
  | nat n => toString n
  | bool b => if b then "true" else "false"

end FieldValue

/-- The description of an event. -/
structure Record where
  level : Level
  component : Component
  message : String
  fields : List (String × FieldValue)

namespace Event

/-- How important an event is. -/
def level : Event → Level
  | ignored .. | cut .. | violated .. => .warn
  | installing .. | landedOnMarker .. | landed .. | returning .. | returningTo .. => .debug
  | _ => .trace

/-- The component that an event comes from. -/
def component : Event → Component
  | frozen .. | written .. | removed .. | ignored .. | cut .. => .store
  | read .. | unanswered .. | superCalled .. | superUnanswered .. | installing .. => .dispatch
  | invoked .. => .closure
  | violated .. => .validation
  | entered .. | left .. | passed .. | landedOnMarker .. | landed .. | returning ..
  | returningTo .. => .escape

/-- The message of an event. -/
def message : Event → String
  | frozen .. => "make readonly"
  | written .. => "set"
  | removed .. => "delete"
  | ignored .. => "write to a sealed store ignored"
  | cut .. => "ancestor walk hit the depth limit"
  | read .. => "get"
  | unanswered .. => "call of unresolved attribute"
  | superCalled .. => "super call"
  | superUnanswered .. => "super call of unresolved attribute"
  | installing .. => "install kernel attributes"
  | invoked .. => "invoke"
  | entered .. => "enter try"
  | left .. => "leave try"
  | passed .. => "escape passes"
  | landedOnMarker .. => "escape landed on its marker"
  | landed .. => "escape landed"
  | returning .. => "return"
  | returningTo .. => "return to marker"
  | violated v => v.message

/-- A field that shows an identity. -/
def idField (label : String) (o : ObjectId) : String × FieldValue :=
  (label, .shown (toString o))

/-- A field that shows a key. -/
def keyField (names : Names) (k : Key) : String × FieldValue :=
  ("key", .shown (k.text names))

/-- A field that shows a marker. -/
def markerField (m : Marker) : String × FieldValue :=
  ("marker", .shown m.text)

/-- The fields of an event, in the order in which they are listed. -/
def fields (names : Names) (h : Heap) : Event → List (String × FieldValue)
  | frozen o k => [idField "id" o, keyField names k]
  | written o k value =>
    [idField "id" o, keyField names k, ("value", .shown (h.inspect value))]
  | removed o k => [idField "id" o, keyField names k]
  | ignored o w => [idField "id" o, ("op", .quoted w.name)]
  | cut o (some k) limit => [idField "id" o, keyField names k, ("limit", .nat limit)]
  | cut o none limit => [idField "id" o, ("limit", .nat limit)]
  | read o k found => [idField "id" o, keyField names k, ("found", .bool found)]
  | unanswered o k => [idField "id" o, keyField names k]
  | superCalled o k holder => [idField "id" o, keyField names k, idField "holder" holder]
  | superUnanswered o k => [idField "id" o, keyField names k]
  | installing o => [idField "id" o]
  | invoked bound argc depth =>
    [("bound", .bool bound), ("argc", .nat argc), ("depth", .nat depth)]
  | entered m depth => [markerField m, ("depth", .nat depth)]
  | left m => [markerField m]
  | passed m remaining => [markerField m, ("remaining", .nat remaining)]
  | landedOnMarker m => [markerField m]
  | landed m => [markerField m]
  | returning levels => [("levels", .nat levels)]
  | returningTo m => [markerField m]
  | violated v => [idField "receiver" v.receiver]

/-- Whether thresholds let an event through. -/
def passes (e : Event) (t : Thresholds) : Bool :=
  t.enables e.component.target e.level

/-- Describes an event. -/
def describe (names : Names) (h : Heap) (e : Event) : Record :=
  ⟨e.level, e.component, e.message, e.fields names h⟩

end Event

namespace Record

/-- The fields in answers. -/
def fieldsJson (r : Record) : List (String × Json) :=
  r.fields.map fun (name, value) => (name, value.toJson)

/-- The description as a plain answer. -/
def toJson (r : Record) : Json :=
  .record [
    ("fields", .record r.fieldsJson),
    ("level", .text r.level.name),
    ("message", .text r.message),
    ("target", .text r.component.target)]

/-- The description with the message as the first field. -/
def toStructured (r : Record) : Json :=
  .record [
    ("level", .text r.level.name),
    ("target", .text r.component.target),
    ("fields", .record (("message", .text r.message) :: r.fieldsJson))]

/-- The description as text: the level in five columns, the message, and the fields. -/
def toLine (r : Record) : String :=
  let level := r.level.name
  let fields := r.fields.map fun (name, value) => " " ++ name ++ "=" ++ value.text
  String.ofList (List.replicate (5 - level.length) ' ') ++ level ++ " " ++ r.message ++
    String.join fields

end Record

end Prototypal
