import Prototypal.Access.Attribute

/-!
# Answers

What scripts see of objects and of outcomes is a structure: a record of host values.  This module
builds these records.  The fields of each are listed in alphabetical order.
-/

namespace Prototypal

/-- A value as scripts hand it out. -/
def Value.toJson (h : Heap) : Value → Json
  | object o => h.picture o
  | host j => j

/-- A host value. -/
def hostValue (j : Json) : Run Value :=
  return .host j

/-- The host value null, for operations that give nothing back. -/
def nothing : Run Value :=
  hostValue .null

/-- A host truth value. -/
def hostTruth (b : Bool) : Run Value :=
  hostValue (.bool b)

/-- A host number. -/
def hostCount (n : Nat) : Run Value :=
  hostValue (.nat n)

/-- A host text. -/
def hostText (s : String) : Run Value :=
  hostValue (.text s)

/-- An object shown as a structure. -/
def showObject (o : ObjectId) : Run Json :=
  return (← get).heap.picture o

/-- Objects shown as structures. -/
def showObjects (os : List ObjectId) : Run Json :=
  return .array (← os.mapM showObject)

/-- An object shown as a structure, or null in its absence. -/
def showOption : Option ObjectId → Run Value
  | some o => do hostValue (← showObject o)
  | none => nothing

/-- The value of an expression as an object.  A host value is boxed: truth values, numbers and
texts into a new object, null and structures into Null. -/
def box : Value → Run ObjectId
  | .object o => return o
  | .host (.bool b) => make (.boolean b)
  | .host (.int n) => make (.number (Float.ofInt n))
  | .host (.text s) => make (.text s)
  | .host _ => return nullId

/-- Whether a condition is met: by host truth, or by a Boolean that is true. -/
def isTrue : Value → Run Bool
  | .object o => return (← payloadOf o).boolean? == some true
  | .host (.bool b) => return b
  | .host _ => return false

/-- The number of a value; zero if it is none. -/
def numberOf : Value → Run Float
  | .object o => return (← payloadOf o).number?.getD 0
  | .host (.int n) => return Float.ofInt n
  | .host _ => return 0

/-- The text that a value contributes to a concatenation. -/
def textOf : Value → Run String
  | .object o => do
    match ← payloadOf o with
    | .text s => return s
    | p => return p.kind.name
  | .host (.text s) => return s
  | .host j => return j.compact

/-- A payload shown as a structure of its own; nothing for payloads without content. -/
def Payload.content (h : Heap) : Payload → Json
  | boolean b => .bool b
  | number n => numberJson n
  | text s => .text s
  | list items => .array (items.map h.picture)
  | map entries => .array (entries.map fun (k, v) => .array [h.picture k, h.picture v])
  | closure c => .text (inspectClosure c.owner)
  | marker m => .text m.text
  | plain => .null
  | null => .null

/-- The native value that a coercion makes of a payload it accepts. -/
def Coercion.extracted (c : Coercion) (h : Heap) (p : Payload) : Json :=
  .record [(c.label, p.content h)]

/-- What a coercion makes of an object without calling anything. -/
def coercionInfo (c : Coercion) (o : ObjectId) : Run Value := do
  let p ← payloadOf o
  let h := (← get).heap
  hostValue (.record [
    ("accepts", .bool (c.accepts p)),
    ("attr", .text c.attributeName),
    ("expected", .text c.expected.name),
    ("extract", if c.accepts p then c.extracted h p else .null)])

/-- The payload of an object, if it is of that kind.  Of Null only the kind is asked. -/
def payloadInfo (kind : Kind) (o : ObjectId) : Run Value := do
  let p ← payloadOf o
  if kind = .null then hostTruth p.isNull
  else if p.kind = kind then hostValue (p.content (← get).heap)
  else nothing

/-- The coercion that a symbol stands for. -/
def coercionNamed (y : Symbol) : Json :=
  .ofOption (fun c => .record [
    ("attr", .text c.attributeName),
    ("expected", .text c.expected.name),
    ("name", .text c.title)]) (Coercion.ofSymbol? y)

/-- What is known of a symbol. -/
def symbolInfo (y : Symbol) : Run Value := do
  let text := (← get).names.text y
  hostValue (.record [
    ("debug", .text (":" ++ text)),
    ("display", .text text),
    ("reserved", .bool y.isReserved),
    ("text", .text text)])

/-- A key in the notation for diagnosis. -/
def Key.inspect (names : Names) (h : Heap) : Key → String
  | name y => ":" ++ names.text y
  | object o => h.inspect o

/-- What is known of a key. -/
def keyInfo (k : Key) : Run Value := do
  let s ← get
  hostValue (.record [
    ("debug", .text (k.inspect s.names s.heap)),
    ("display", .text (k.text s.names)),
    ("reserved", .bool k.isReserved),
    ("symbol", .ofOption (fun y => .text (s.names.text y)) k.symbol?)])

/-- What the slots of an object hold. -/
def slotsInfo (o : ObjectId) : Run Value := do
  let slots ← slotsOf o
  hostValue (.record [
    ("empty", .bool slots.table.isEmpty),
    ("id", .nat slots.owner),
    ("len", .nat slots.table.length),
    ("parent", .ofOption .nat slots.parent),
    ("sealed", .bool slots.isSealed),
    ("stepparents", .array (slots.stepparents.map .nat))])

/-- What is known of a closure. -/
def closureInfo (o : ObjectId) : Run Value := do
  match (← payloadOf o).closure? with
  | some c =>
    let h := (← get).heap
    hostValue (.record [
      ("bound", .bool c.isBound),
      ("debug", .text (inspectClosure c.owner)),
      ("owner", .ofOption h.picture c.owner)])
  | none => nothing

/-- A member of a list of keys: a Text by its text, any other object by its identity. -/
def keyLabel (o : ObjectId) : Run String := do
  match ← payloadOf o with
  | .text t => return "t:" ++ t
  | _ => return "o:" ++ toString o

/-- The members of a list of keys, in the order of their code points. -/
def keyList (o : ObjectId) : Run Value := do
  let labels ← ((← payloadOf o).list?.getD []).mapM keyLabel
  let sorted := labels.mergeSort fun a b => !(decide (b < a))
  hostValue (.record [("id", .nat o), ("keys", .array (sorted.map .text))])

/-- What a lookup found. -/
def showFound : Option Found → Run Value
  | some f => do
    let h := (← get).heap
    hostValue (.record [("holder", h.picture f.holder), ("value", h.picture f.value)])
  | none => nothing

/-- A violation. -/
def Violation.toJson (v : Violation) : Json :=
  .record [
    ("display", .text v.message),
    ("message", .text v.problem.message),
    ("operation", .text v.access.name),
    ("receiver", .nat v.receiver)]

/-- The rules that a request breaks beforehand. -/
def requestInfo (receiver : ObjectId) (r : Request) : Run Value := do
  let violations ← checkBefore receiver r
  let names := (← get).names
  hostValue (.record [
    ("key", .text (r.key.text names)),
    ("name", .text r.access.name),
    ("violations", .array (violations.map Violation.toJson))])

/-- A level of the journal, or null in its absence. -/
def Level.toJson (l : Option Level) : Json :=
  .ofOption (fun l => .text l.name) l

/-- Settings. -/
def Settings.toJson (s : Settings) : Json :=
  .record [
    ("log", .record [
      ("closure", Level.toJson s.thresholds.closure),
      ("dispatch", Level.toJson s.thresholds.dispatch),
      ("escape", Level.toJson s.thresholds.escape),
      ("global", Level.toJson (some s.thresholds.general)),
      ("store", Level.toJson s.thresholds.store),
      ("validation", Level.toJson s.thresholds.validation)]),
    ("max_call_depth", .nat s.policy.limits.callDepth.toNat),
    ("max_chain_depth", .nat s.policy.limits.chainDepth.toNat),
    ("validation", .text s.policy.strictness.name)]

/-- A strictness. -/
def Strictness.toJson (l : Strictness) : Json :=
  .record [
    ("display", .text l.name),
    ("enabled", .bool l.isEnabled),
    ("name", .text l.name),
    ("u8", .nat l.code)]

/-- An order as a number: -1, 0 or 1. -/
def orderJson : Ordering → Json
  | .lt => .int (-1)
  | .eq => .int 0
  | .gt => .int 1

/-- Where an escape is headed. -/
def Target.toJson : Target → Json
  | levels n => .record [("levels", .nat n)]
  | marker m => .record [("marker", .text m.text)]

/-- The fields that tell how evaluation ended early. -/
def Interrupt.fields (names : Names) (h : Heap) : Interrupt → List (String × Json)
  | escape e => [("carried", h.picture e.value), ("escape", e.target.toJson)]
  | fault f => [("error", .text f.kind), ("message", .text (f.message names))]
  | reconfigured => [("error", .text "Panic"), ("message", .text reconfiguredMessage)]
  | overflow => [("error", .text "Panic"), ("message", .text overflowMessage)]
  | exhausted => [("error", .text "Panic"), ("message", .text "out of gas")]

/-- Evaluates and tells how it ended.  Errors and escapes end here. -/
def observe (act : Run Value) : Run Value := fun s =>
  match act s with
  | .ok v s' => .ok (.host (.record [("is_escape", .bool false), ("r", v.toJson s'.heap)])) s'
  | .error (.escape e) s' =>
    .ok (.host (.record [
      ("carried", s'.heap.picture e.value),
      ("escape", e.target.toJson),
      ("is_escape", .bool true)])) s'
  | .error (.fault f) s' =>
    .ok (.host (.record [
      ("error", .text f.kind),
      ("is_escape", .bool false),
      ("message", .text (f.message s'.names))])) s'
  | .error i s' => .error i s'

end Prototypal
