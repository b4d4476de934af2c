import Prototypal.Call.Base
import Prototypal.Script.Answer

/-!
# Evaluation

The meaning of expressions.  Operations on evaluated operands come first, one function per shape;
then `eval`, by recursion on the expression; then activations.

**Nested calls.**  `eval` and the operations carry activations out through a parameter `enter`.
`activate` ties the knot: an activation is allowed if the nesting stays within the limit on
calls, and it evaluates its body with activations one level deeper.

**Gas.**  `activate` recurses on a number that goes down with every level.  The limit on calls
fits 64 bits, so starting from 2 ^ 64 less the present nesting, the limit is always met first.
-/

namespace Prototypal

/-- An operation without operands. -/
def Nullary.run (i : Invocation) : Nullary → Run Value
  | hostBool b => hostTruth b
  | hostInt n => hostValue (.int n)
  | hostText s => Prototypal.hostText s
  | boolean b => .object <$> make (.boolean b)
  | number n => .object <$> make (.number n)
  | text s => .object <$> make (.text s)
  | root => .object <$> make .plain
  | pristine => .object <$> makePristine
  | freshId => do hostCount (← skipId)
  | receiver => return .object i.this
  | holder => return .object (i.holder.getD nullId)
  | argument n => return .object (i.arg n)
  | arguments => .object <$> make (.list i.args)
  | argumentCount => hostCount i.args.length
  | isBound => hostTruth i.receiver.isSome
  | depth => do hostCount (← get).boundaries.length
  | strictness => do Prototypal.hostText (← get).strictness.name
  | setStrictness name => do
    match Strictness.parse name with
    | .ok l => Prototypal.setStrictness l
    | .error _ => pure ()
    nothing
  | configure document => do
    match Settings.parse? document with
    | some described => fixSettings described
    | none => pure ()
    nothing
  | isConfigured => do hostTruth (← get).fixed.isSome
  | settings => do hostValue (← get).settings.toJson
  | symbolInfo name => do Prototypal.symbolInfo (← intern name)
  | symbolOrder a b => do
    let y ← intern a
    let z ← intern b
    hostValue (orderJson (y.order z))
  | coercionOf name => do hostValue (coercionNamed (← intern name))

/-- An operation on one object. -/
def Unary.run (enter : Enter) (o : ObjectId) : Unary → Run Value
  | child => .object <$> makeWith .plain (some o) []
  | clone => .object <$> copy o
  | install => do
    Prototypal.install o
    nothing
  | birth => .object <$> giveBirth enter o none
  | slotsInfo => Prototypal.slotsInfo o
  | detach => do
    setParent o none
    nothing
  | parent => do showOption (← slotsOf o).parent
  | stepparents => do hostValue (← showObjects (← slotsOf o).stepparents)
  | keyList => Prototypal.keyList o
  | kind => do Prototypal.hostText (← kindOf o).name
  | inspect => do Prototypal.hostText ((← get).heap.inspect o)
  | payload wanted => payloadInfo wanted o
  | coercion c => coercionInfo c o
  | coerce c => do
    let p ← Prototypal.coerce enter o c
    hostValue (c.extracted (← get).heap p)
  | closureInfo => Prototypal.closureInfo o
  | isActive => do
    match (← payloadOf o).marker? with
    | some m => hostTruth ((← get).boundaries.contains m)
    | none => hostTruth false
  | returnLevels n => Prototypal.returnLevels n o
  | raiseLevels n => throw (.escape ⟨.levels n, o⟩)

/-- An operation on two objects. -/
def Binary.run (enter : Enter) (a b : ObjectId) : Binary → Run Value
  | isA => do hostTruth (← Prototypal.isA a b)
  | identical => hostTruth (a == b)
  | setParent => do
    Prototypal.setParent a (some b)
    nothing
  | pushStepparent => do
    Prototypal.pushStepparent a b
    nothing
  | bind => do
    match (← payloadOf a).closure? with
    | some c => .object <$> make (.closure (c.bind b))
    | none => nothing
  | sharesBody => do
    match (← payloadOf a).closure?, (← payloadOf b).closure? with
    | some c, some d => hostTruth (c.sharesBody d)
    | _, _ => hostTruth false
  | birthWith => do .object <$> giveBirth enter a (← payloadOf b).closure?
  | returnTo => Prototypal.returnTo a b
  | raiseTo => do
    match (← payloadOf a).marker? with
    | some m => throw (.escape ⟨.marker m, b⟩)
    | none => nothing

/-- An operation on a key. -/
def KeyQuery.run (k : Key) : KeyQuery → Run Value
  | info => keyInfo k
  | toObject => .object <$> keyObject k

/-- An operation on an object and a key. -/
def Keyed.run (o : ObjectId) (k : Key) : Keyed → Run Value
  | get => .object <$> getAttribute o k
  | delete => .object <$> deleteAttribute o k
  | has => do hostTruth (← hasAttribute o k)
  | respondTo => do hostTruth (← respondsTo o k)
  | superGet => .object <$> attributeAbove o k
  | lookup => do showOption (← Prototypal.lookup o k)
  | superLookup => do showOption (← lookupAbove o k)
  | resolve => do showFound (← Prototypal.resolve o k)
  | slotHas => do hostTruth (← hasAttribute o k)
  | slotGet => do showOption (← Prototypal.slotGet o k)
  | slotDelete => .object <$> Prototypal.slotDelete o k
  | isReadonly => do hostTruth ((← slotsOf o).isReadonly k)
  | makeReadonly => do
    Prototypal.makeReadonly o k
    nothing
  | checkNothing access => do
    let v ← Prototypal.checkAfter o (.ofAccess access k nullId) none
    hostValue (.ofOption Violation.toJson v)

/-- An operation on an object, a key and a value. -/
def KeyedValue.run (o : ObjectId) (k : Key) (v : ObjectId) : KeyedValue → Run Value
  | set => do
    setAttribute o k v
    nothing
  | slotSet => do
    Prototypal.slotSet o k v
    nothing
  | checkBefore access => requestInfo o (.ofAccess access k v)
  | checkAfter access => do
    let violation ← Prototypal.checkAfter o (.ofAccess access k nullId) (some v)
    hostValue (.ofOption Violation.toJson violation)

/-- Runs a computation that many times. -/
def times (act : Run Unit) : Nat → Run Unit
  | 0 => return ()
  | n + 1 => do
    act
    times act n

/-- The object that plays a role, if there is one. -/
def Role.player? (r : Role) (parts : List (Role × ObjectId)) : Option ObjectId :=
  parts.lookup r

/-- Makes an object out of its parts. -/
def buildFrom (enter : Enter) (parts : List (Role × ObjectId)) : Run ObjectId := do
  let payload ← match Role.payload.player? parts with
    | some o => payloadOf o
    | none => pure .plain
  let initializer ← match Role.initializer.player? parts with
    | some o => do pure (← payloadOf o).closure?
    | none => pure none
  let stepparents := parts.filterMap fun (r, o) => if r = .stepparent then some o else none
  construct enter payload (Role.parent.player? parts) stepparents initializer

/-- The last of some values, Null if there are none. -/
def lastValue (vs : List Value) : Value :=
  vs.getLastD (.object nullId)

mutual

/-- The value of an expression. -/
def eval (enter : Enter) (i : Invocation) : Expr → Run Value
  | .null => return .object nullId
  | .var name => valueOf name
  | .nullary op => op.run i
  | .unary op o => do
    op.run enter (← box (← eval enter i o))
  | .binary op a b => do
    let a ← box (← eval enter i a)
    let b ← box (← eval enter i b)
    op.run enter a b
  | .ofKey op k => do
    op.run (← evalKey enter i k)
  | .sameKey j k => do
    let j ← evalKey enter i j
    let k ← evalKey enter i k
    hostTruth (j == k)
  | .keyed op o k => do
    let o ← box (← eval enter i o)
    let k ← evalKey enter i k
    op.run o k
  | .keyedValue op o k v => do
    let o ← box (← eval enter i o)
    let k ← evalKey enter i k
    let v ← box (← eval enter i v)
    op.run o k v
  | .assign name e => do
    let v ← eval enter i e
    assign name v
    return v
  | .block es => do
    return lastValue (← evalAll enter i es)
  | .quiet es => do
    let _ ← evalAll enter i es
    nothing
  | .loop n es => do
    times (do let _ ← evalAll enter i es) n
    nothing
  | .branch condition yes no => do
    if ← isTrue (← eval enter i condition) then eval enter i yes else eval enter i no
  | .emit e => do
    let v ← eval enter i e
    emit (v.toJson (← get).heap)
    return v
  | .observe e => observe (eval enter i e)
  | .settle e => settle (eval enter i e)
  | .add a b => do
    let x ← numberOf (← eval enter i a)
    let y ← numberOf (← eval enter i b)
    .object <$> make (.number (x + y))
  | .less a b => do
    let x ← numberOf (← eval enter i a)
    let y ← numberOf (← eval enter i b)
    hostTruth (decide (x < y))
  | .concat es => do
    let texts ← (← evalAll enter i es).mapM textOf
    .object <$> make (.text (String.join texts))
  | .function body => .object <$> makeClosure (.script body)
  | .list es => do
    .object <$> make (.list (← evalObjects enter i es))
  | .map entries => do
    .object <$> make (.map (← evalEntries enter i entries))
  | .build parts => do
    .object <$> buildFrom enter (← evalParts enter i parts)
  | .send o k args => do
    let o ← box (← eval enter i o)
    let k ← evalKey enter i k
    .object <$> send enter o k (← evalObjects enter i args)
  | .sendAbove o k args => do
    let o ← box (← eval enter i o)
    let k ← evalKey enter i k
    .object <$> sendAbove enter o o k (← evalObjects enter i args)
  | .sendSuper k args => do
    let k ← evalKey enter i k
    .object <$> sendSuper enter i k (← evalObjects enter i args)
  | .apply f args => do
    let f ← box (← eval enter i f)
    let args ← evalObjects enter i args
    match (← payloadOf f).closure? with
    | some c => .object <$> enter (.body c none args)
    | none => nothing
  | .attempt name body =>
    .object <$> attempt fun token => do
      assign name (.object token)
      box (lastValue (← evalAll enter i body))

/-- The key that an expression writes. -/
def evalKey (enter : Enter) (i : Invocation) : KeyExpr → Run Key
  | .name text => return .name (← intern text)
  | .object e => return .object (← box (← eval enter i e))
  | .ofValue e => do keyOf (← box (← eval enter i e))

/-- The values of expressions, from left to right. -/
def evalAll (enter : Enter) (i : Invocation) : List Expr → Run (List Value)
  | [] => return []
  | e :: es => do
    let v ← eval enter i e
    return v :: (← evalAll enter i es)

/-- The values of expressions as objects, from left to right. -/
def evalObjects (enter : Enter) (i : Invocation) : List Expr → Run (List ObjectId)
  | [] => return []
  | e :: es => do
    let o ← box (← eval enter i e)
    return o :: (← evalObjects enter i es)

/-- The entries of a map, each with the key first. -/
def evalEntries (enter : Enter) (i : Invocation) :
    List (Expr × Expr) → Run (List (ObjectId × ObjectId))
  | [] => return []
  | (k, v) :: es => do
    let k ← box (← eval enter i k)
    let v ← box (← eval enter i v)
    return (k, v) :: (← evalEntries enter i es)

/-- The parts of an object under construction, from left to right. -/
def evalParts (enter : Enter) (i : Invocation) :
    List (Role × Expr) → Run (List (Role × ObjectId))
  | [] => return []
  | (r, e) :: es => do
    let o ← box (← eval enter i e)
    return (r, o) :: (← evalParts enter i es)

end

/-- Runs a body. -/
def Body.run (enter : Enter) (i : Invocation) : Body → Run ObjectId
  | script es => do box (lastValue (← evalAll enter i es))
  | base a => a.run enter i

/-- What an activation does at its level of nesting. -/
def Activation.run (enter : Enter) (level : Nat) : Activation → Run ObjectId
  | body c holder args => do
    note (.invoked c.isBound args.length level)
    c.body.run enter ⟨c.owner, holder, args⟩
  | value v args => send enter v (.name .call) args

/-- Runs a computation one level of nesting deeper, if the limit allows it. -/
def nested (act : Nat → Run α) : Run α := do
  let s ← get
  let level := s.callDepth + 1
  let limit := s.limits.callDepth.toNat
  if limit < level then fail (.tooDeep limit)
  else
    set { s with callDepth := level }
    ensure (act level) fun s => { s with callDepth := level - 1 }

/-- Carries an activation out, with gas for that many levels of nesting. -/
def activate : Nat → Activation → Run ObjectId
  | 0, _ => nested fun _ => throw .exhausted
  | gas + 1, a => nested fun level => a.run (activate gas) level

/-- The gas that suffices at a level of nesting. -/
def gasAt (level : Nat) : Nat :=
  UInt64.size - level

/-- Carries an activation out. -/
def enterCall : Enter := fun a => do
  activate (gasAt (← get).callDepth) a

/-- Evaluates an expression outside of any body. -/
def evaluate (e : Expr) : Run Value :=
  eval enterCall .outside e

end Prototypal
