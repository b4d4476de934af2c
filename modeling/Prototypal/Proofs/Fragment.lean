import Mathlib.Tactic.Common
import Prototypal.Script.Eval

/-!
# Fragments of the expression language

Many facts about runs hold only of scripts that leave some operations alone: a script that raises
no escape unchecked, or one that never looks at the strictness.  A `Fragment` says which of these
operations a script may use, and which changes of the settings and of the strictness it may make.

**Syntax.**  `Expr.within` asks whether an expression keeps to a fragment, its closures' bodies
included.  It is computed, so a concrete script is checked by evaluation.

**State.**  A run also enters the closures that lie in the heap, so the script alone does not
decide.  `Heap.Within` says that every body in the heap keeps to the fragment.  The lemmas at the
end say that no operation on heaps brings in a body from outside: payloads never change, and a new
object carries a payload that was given or one that was there before.
-/

namespace Prototypal

/-- A change of what a session is governed by. -/
inductive Setting where
  | settings (x : Settings)
  | strictness (l : Strictness)

/-- The operations that a script may or may not use. -/
structure Fragment where
  /-- Raising an escape without asking whether a boundary awaits it. -/
  raises : Bool
  /-- Turning an outcome, an error or an escape included, into a structure. -/
  observes : Bool
  /-- Turning an escape into an error. -/
  settles : Bool
  /-- Reading or changing the strictness in force. -/
  strictness : Bool
  /-- Fixing the settings. -/
  configures : Bool
  /-- Reading the settings. -/
  settings : Bool
  /-- Each change, by the operation that makes it. -/
  changes : Setting → Bool

namespace Fragment

/-- The whole language. -/
def full : Fragment := ⟨true, true, true, true, true, true, fun _ => true⟩

/-- Whether a script may make a change: it may use the operation, and with what it says. -/
def allows (f : Fragment) : Setting → Bool
  | .settings x => f.configures && f.changes (.settings x)
  | .strictness l => f.strictness && f.changes (.strictness l)

variable {f : Fragment}

lemma configures_of_allows {x : Settings} (h : f.allows (.settings x) = true) :
    f.configures = true := by
  simp only [allows, Bool.and_eq_true] at h
  exact h.1

lemma strictness_of_allows {l : Strictness} (h : f.allows (.strictness l) = true) :
    f.strictness = true := by
  simp only [allows, Bool.and_eq_true] at h
  exact h.1

end Fragment

/-! ## Syntax -/

/-- Whether an operation without operands belongs to a fragment.  A name that sets nothing and a
document that fixes nothing are no changes. -/
def Nullary.within (f : Fragment) : Nullary → Bool
  | strictness => f.strictness
  | setStrictness name =>
    match Strictness.parse name with
    | .ok l => f.allows (.strictness l)
    | .error _ => f.strictness
  | configure document =>
    match Settings.parse? document with
    | some x => f.allows (.settings x)
    | none => f.configures
  | isConfigured | settings => f.settings
  | _ => true

/-- Whether an operation on one object belongs to a fragment. -/
def Unary.within (f : Fragment) : Unary → Bool
  | raiseLevels _ => f.raises
  | _ => true

/-- Whether an operation on two objects belongs to a fragment. -/
def Binary.within (f : Fragment) : Binary → Bool
  | raiseTo => f.raises
  | _ => true

mutual

/-- Whether an expression keeps to a fragment. -/
def Expr.within (f : Fragment) : Expr → Bool
  | .null | .var _ => true
  | .nullary op => op.within f
  | .unary op o => op.within f && o.within f
  | .binary op a b => op.within f && a.within f && b.within f
  | .ofKey _ k => k.within f
  | .sameKey j k => j.within f && k.within f
  | .keyed _ o k => o.within f && k.within f
  | .keyedValue _ o k v => o.within f && k.within f && v.within f
  | .assign _ e | .emit e => e.within f
  | .block es | .quiet es | .loop _ es | .concat es | .function es | .list es => allWithin f es
  | .branch condition yes no => condition.within f && yes.within f && no.within f
  | .observe e => f.observes && e.within f
  | .settle e => f.settles && e.within f
  | .add a b | .less a b => a.within f && b.within f
  | .map entries => entriesWithin f entries
  | .build parts => partsWithin f parts
  | .send o k args | .sendAbove o k args => o.within f && k.within f && allWithin f args
  | .sendSuper k args => k.within f && allWithin f args
  | .apply g args => g.within f && allWithin f args
  | .attempt _ body => allWithin f body

/-- Whether a key keeps to a fragment. -/
def KeyExpr.within (f : Fragment) : KeyExpr → Bool
  | .name _ => true
  | .object e | .ofValue e => e.within f

/-- Whether all expressions keep to a fragment. -/
def allWithin (f : Fragment) : List Expr → Bool
  | [] => true
  | e :: es => e.within f && allWithin f es

/-- Whether the entries of a map keep to a fragment. -/
def entriesWithin (f : Fragment) : List (Expr × Expr) → Bool
  | [] => true
  | (k, v) :: es => k.within f && v.within f && entriesWithin f es

/-- Whether the parts of an object under construction keep to a fragment. -/
def partsWithin (f : Fragment) : List (Role × Expr) → Bool
  | [] => true
  | (_, e) :: es => e.within f && partsWithin f es

end

/-! ## Payloads, activations and heaps -/

/-- Whether a body keeps to a fragment.  The base attributes belong to every fragment: the
returns among them are checked, and none of them asks for the strictness or the settings. -/
def Body.within (f : Fragment) : Body → Bool
  | script es => allWithin f es
  | base _ => true

/-- Whether the body that a payload carries, if it carries one, keeps to a fragment. -/
def Payload.within (f : Fragment) : Payload → Bool
  | closure c => c.body.within f
  | _ => true

/-- Whether the body that an activation runs, if it runs one, keeps to a fragment. -/
def Activation.within (f : Fragment) : Activation → Bool
  | body c _ _ => c.body.within f
  | value .. => true

/-- A closure that was read from a payload of the fragment is of the fragment. -/
lemma Payload.within_of_closure? {f : Fragment} {p : Payload} {c : Closure}
    (hp : p.within f = true) (hc : p.closure? = some c) : c.body.within f = true := by
  cases p with
  | closure d =>
      simp only [Payload.closure?, Option.some.injEq] at hc
      subst hc
      exact hp
  | _ => simp [Payload.closure?] at hc

/-- Every body in the heap keeps to a fragment. -/
def Heap.Within (f : Fragment) (h : Heap) : Prop :=
  ∀ o, (h.payload o).within f = true

namespace Heap

lemma get?_add (h : Heap) (x : Object) (o : ObjectId) :
    (h.add x).get? o = if o = h.nextId then some x else h.get? o := by
  by_cases ho : o = h.nextId
  · simp [ho]
  · have other : o ≠ h.objects.size := ho
    simp [add, get?, Array.getElem?_push, ho, other]

/-- What an added object does to the payloads: there is one more. -/
lemma payload_add (h : Heap) (x : Object) (o : ObjectId) :
    (h.add x).payload o = if o = h.nextId then x.payload else h.payload o := by
  by_cases ho : o = h.nextId
  · simp only [payload, get?_add, ho, if_true]
  · simp only [payload, get?_add, ho, if_false]

variable {f : Fragment} {h : Heap}

lemma Within.add (hh : h.Within f) {x : Object} (hx : x.payload.within f = true) :
    (h.add x).Within f := by
  intro o
  rw [payload_add]
  split
  · exact hx
  · exact hh o

lemma Within.skip (hh : h.Within f) : h.skip.Within f := by
  intro o
  simpa only [payload, get?_skip] using hh o

lemma Within.setSlots (hh : h.Within f) (o : ObjectId) (s : Slots) :
    (h.setSlots o s).Within f := by
  intro x
  rw [payload_setSlots]
  exact hh x

end Heap

/-- The heap that scripts start from holds no body at all. -/
lemma Heap.within_initial (f : Fragment) : Heap.initial.Within f := by
  intro o
  match o with
  | 0 => rfl
  | 1 => rfl
  | n + 2 => rfl

end Prototypal
