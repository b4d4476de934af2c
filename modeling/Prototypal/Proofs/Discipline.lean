import Prototypal.Proofs.Fragment

/-!
# Disciplines: properties that every evaluation has

A *discipline* is a property of computations that is closed under the ways in which evaluation
puts computations together.  Every evaluation of an expression of the fragment then has the
property (`Discipline.keeps_evaluate`, in the module on evaluation).  The recursion through
expressions, calls and closures is done there once; a fact about all runs is proved by giving its
discipline.

* `Basic` — the operations that neither call nor raise anything, listed one by one.
* `Inspection` — the computations that only look; the checks of an access are among them.
* `Discipline` — the property and what has to be shown of it: sequencing, the basic operations,
  returns, boundaries, checks, and nesting.

**Levels.**  The property speaks of computations at a level of nesting.  At the bottom of the
recursion bound, `Discipline.exhausted` is asked for only where the level exceeds every limit.

**Closures.**  A body comes out of the heap by reading a payload, so `Discipline.payload` hands
the continuation a payload of the fragment.
-/

namespace Prototypal

/-- The operations that neither call nor raise anything. -/
inductive Basic (f : Fragment) : {α : Type} → Run α → Prop where
  | look {α : Type} (g : Heap → Names → α) : Basic f (do let s ← get; return g s.heap s.names)
  | valueOf (name : String) : Basic f (valueOf name)
  | note (e : Event) (he : e.component = .dispatch ∨ e.component = .closure) : Basic f (note e)
  | makeWith (p : Payload) (parent : Option ObjectId) (stepparents : List ObjectId)
      (hp : p.within f = true) : Basic f (makeWith p parent stepparents)
  | makeClosure (b : Body) (hb : b.within f = true) : Basic f (makeClosure b)
  | copy (o : ObjectId) : Basic f (copy o)
  | skipId : Basic f skipId
  | intern (text : String) : Basic f (intern text)
  | assign (name : String) (v : Value) : Basic f (assign name v)
  | emit (j : Json) : Basic f (emit j)
  | slotSet (o : ObjectId) (k : Key) (v : ObjectId) : Basic f (slotSet o k v)
  | slotDelete (o : ObjectId) (k : Key) : Basic f (slotDelete o k)
  | makeReadonly (o : ObjectId) (k : Key) : Basic f (makeReadonly o k)
  | setParent (o : ObjectId) (parent : Option ObjectId) : Basic f (setParent o parent)
  | pushStepparent (o stepparent : ObjectId) : Basic f (pushStepparent o stepparent)
  | resolve (o : ObjectId) (k : Key) (hk : k.isReserved = false) : Basic f (resolve o k)
  | resolveAbove (o : ObjectId) (k : Key) : Basic f (resolveAbove o k)
  | isA (o target : ObjectId) : Basic f (isA o target)
  | fail {α : Type} (x : Fault) : Basic f (fail x : Run α)

/-- The computations that only look: at the heap, at the names, and for an ancestor. -/
inductive Inspection : {α : Type} → Run α → Prop where
  | ofPure {α : Type} (a : α) : Inspection (pure a)
  | look {α : Type} (g : Heap → Names → α) : Inspection (do let s ← get; return g s.heap s.names)
  | isA (o target : ObjectId) : Inspection (isA o target)
  | bind {α β : Type} {act : Run α} {next : α → Run β} (hact : Inspection act)
      (hnext : ∀ a, Inspection (next a)) : Inspection (act >>= next)

namespace Inspection

lemma payloadOf (o : ObjectId) : Inspection (payloadOf o) :=
  look fun h _ => h.payload o

lemma keyProblems (k : Key) : Inspection (keyProblems k) := by
  cases k with
  | name y => exact look fun _ names => if (names.text y).isEmpty then [Problem.emptyName] else []
  | object o => exact (payloadOf o).bind fun p => ofPure _

lemma storeProblems (receiver : ObjectId) (k : Key) (v : ObjectId) :
    Inspection (storeProblems receiver k v) := by
  refine (payloadOf v).bind fun p => ?_
  split
  · split
    · exact ofPure []
    · exact (isA v receiver).bind fun b => ofPure _
  · split
    · exact ofPure _
    · exact ofPure []

/-- The checks before an access only look. -/
lemma checkBefore (receiver : ObjectId) (r : Request) : Inspection (checkBefore receiver r) := by
  refine (keyProblems r.key).bind fun ofKey => ?_
  cases r with
  | set k v => exact (storeProblems receiver k v).bind fun ofStore => ofPure _
  | _ => exact ofPure _

/-- The check after an access only looks. -/
lemma checkAfter (receiver : ObjectId) (r : Request) (produced : Option ObjectId) :
    Inspection (checkAfter receiver r produced) := by
  unfold Prototypal.checkAfter
  split
  · split
    · exact (payloadOf _).bind fun p => ofPure _
    · exact ofPure none
  · exact ofPure none

end Inspection

/-- A property of computations at a level of nesting that every evaluation of the fragment has. -/
structure Discipline (f : Fragment) where
  /-- The computations that keep to the discipline at a level of nesting. -/
  Keeps : {α : Type} → Nat → Run α → Prop
  ofPure : ∀ {α : Type} (n : Nat) (a : α), Keeps n (pure a)
  bind : ∀ {α β : Type} {n : Nat} {act : Run α} {next : α → Run β},
    Keeps n act → (∀ a, Keeps n (next a)) → Keeps n (act >>= next)
  /-- What is read from the heap carries no body from outside the fragment. -/
  payload : ∀ {β : Type} {n : Nat} (o : ObjectId) {next : Payload → Run β},
    (∀ p, p.within f = true → Keeps n (next p)) → Keeps n (payloadOf o >>= next)
  basic : ∀ {α : Type} {n : Nat} {act : Run α}, Basic f act → Keeps n act
  boundaries : ∀ {β : Type} {n : Nat} (next : List Marker → Run β),
    (∀ bs, Keeps n (next bs)) → Keeps n (do next (← get).boundaries)
  fixed : f.settings = true → ∀ {β : Type} {n : Nat} (next : Option Settings → Run β),
    (∀ x, Keeps n (next x)) → Keeps n (do next (← get).fixed)
  strictness : f.strictness = true → ∀ {β : Type} {n : Nat} (next : Strictness → Run β),
    (∀ l, Keeps n (next l)) → Keeps n (do next (← get).strictness)
  setStrictness : ∀ (n : Nat) {l : Strictness}, f.allows (.strictness l) = true →
    Keeps n (setStrictness l)
  fixSettings : ∀ (n : Nat) {x : Settings}, f.allows (.settings x) = true →
    Keeps n (fixSettings x)
  returnLevels : ∀ {α : Type} (n levels : Nat) (v : ObjectId),
    Keeps n (returnLevels levels v : Run α)
  returnTo : ∀ {α : Type} (n : Nat) (token v : ObjectId), Keeps n (returnTo token v : Run α)
  raise : f.raises = true → ∀ {α : Type} (n : Nat) (e : Escape),
    Keeps n (throw (.escape e) : Run α)
  attempt : ∀ {n : Nat} {body : ObjectId → Run ObjectId},
    (∀ token, Keeps n (body token)) → Keeps n (attempt body)
  settle : f.settles = true → ∀ {α : Type} {n : Nat} {act : Run α},
    Keeps n act → Keeps n (settle act)
  observe : f.observes = true → ∀ {n : Nat} {act : Run Value},
    Keeps n act → Keeps n (observe act)
  checked : ∀ {α : Type} {n : Nat} (o : ObjectId) (r : Request) (produced : α → Option ObjectId)
    {act : Run α}, Keeps n act → Keeps n (checked o r produced act)
  /-- The level of nesting is the one that the state counts. -/
  callDepth : ∀ {β : Type} {n : Nat} (next : Nat → Run β),
    Keeps n (next n) → Keeps n (do next (← get).callDepth)
  nested : ∀ {α : Type} {n : Nat} {act : Nat → Run α},
    Keeps (n + 1) (act (n + 1)) → Keeps n (nested act)
  /-- No limit on calls reaches the level at which the recursion bound ends. -/
  exhausted : ∀ {n : Nat}, UInt64.size ≤ n →
    Keeps n (Prototypal.nested fun _ => throw .exhausted : Run ObjectId)

end Prototypal
