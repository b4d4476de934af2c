import Prototypal.Access.Lookup

/-!
# Checked access

Getting, setting, deleting and calling an attribute are checked before and after, as strictly as
the strictness in force at the beginning demands.

* `checkBefore` looks at the key and at what is to be stored.
* `checkAfter` looks at what a coercion attribute answered.
* `checked` wraps an access in both.  An access that was interrupted is not looked at again.
-/

namespace Prototypal

/-- An access to an attribute. -/
inductive Request where
  | get (k : Key)
  | set (k : Key) (value : ObjectId)
  | delete (k : Key)
  | call (k : Key)
deriving DecidableEq, Repr

namespace Request

/-- The kind of access. -/
def access : Request → Access
  | get _ => .get
  | set .. => .set
  | delete _ => .delete
  | call _ => .call

/-- The key of the attribute. -/
def key : Request → Key
  | get k => k
  | set k _ => k
  | delete k => k
  | call k => k

/-- A request for a kind of access, with the value for one that stores. -/
def ofAccess (a : Access) (k : Key) (value : ObjectId) : Request :=
  match a with
  | .get => get k
  | .set => set k value
  | .delete => delete k
  | .call => call k

end Request

/-- What is wrong with a key. -/
def keyProblems (k : Key) : Run (List Problem) := do
  match k with
  | .name y => return if ((← get).names.text y).isEmpty then [.emptyName] else []
  | .object o => return if (← payloadOf o).isNull then [.nullKey] else []

/-- What is wrong with storing a value under a key. -/
def storeProblems (receiver : ObjectId) (k : Key) (value : ObjectId) : Run (List Problem) := do
  let p ← payloadOf value
  if k = Key.parent then
    if p.isNull then return []
    else return if ← isA value receiver then [.inheritsReceiver value] else []
  else if k = Key.stepparents then
    return if p.list?.isSome then [] else [.stepparentsNotList p.kind]
  else return []

/-- The rules that an access breaks before it is carried out. -/
def checkBefore (receiver : ObjectId) (r : Request) : Run (List Violation) := do
  let ofKey ← keyProblems r.key
  let ofStore ← match r with
    | .set k value => storeProblems receiver k value
    | _ => pure []
  return (ofKey ++ ofStore).map fun p => ⟨r.access, receiver, p⟩

/-- The rule that an access breaks by what it produced. -/
def checkAfter (receiver : ObjectId) (r : Request) (produced : Option ObjectId) :
    Run (Option Violation) := do
  match r, produced with
  | .call (.name y), some value =>
    match Coercion.ofSymbol? y with
    | some c =>
      let p ← payloadOf value
      return if c.accepts p then none else some ⟨.call, receiver, .wrongAnswer c p.kind⟩
    | none => return none
  | _, _ => return none

/-- Acts on a violation as a strictness demands. -/
def report (l : Strictness) (v : Violation) : Run Unit :=
  match l with
  | .off => return ()
  | .warn => note (.violated v)
  | .strict => fail (.invalid v)

/-- Carries an access out between its checks.  `produced` is what the check afterwards looks
at. -/
def checked (receiver : ObjectId) (r : Request) (produced : α → Option ObjectId) (act : Run α) :
    Run α := do
  let l := (← get).strictness
  if l.isEnabled then
    (← checkBefore receiver r).forM (report l)
    let a ← act
    (← checkAfter receiver r (produced a)).forM (report l)
    return a
  else act

end Prototypal
