import Prototypal.Settings.Document
import Prototypal.Settings.Policy

/-!
# Reading a policy from a document

What a document leaves out stays as in the standard policy.  A document that gives anything of
the wrong form describes no policy.
-/

namespace Prototypal

/-- A strictness is given by its name, as a text or as the only field of an object. -/
def Strictness.read? : Document → Option Strictness
  | .text (some s) => ofName? s
  | .object [(some s, .null)] => ofName? s
  | _ => none

/-- A limit is given by a row of digits that fits 64 bits. -/
def Limits.readBound? : Document → Option UInt64
  | .number (some n) => if n < UInt64.size then some (.ofNat n) else none
  | _ => none

/-- What a document says of the limits. -/
def Limits.read? (d : Document) : Option Limits := do
  match ← d.parts? ["max_call_depth", "max_chain_depth"] with
  | [calls, hops] =>
    return {
      callDepth := ← calls.elim (some standard.callDepth) readBound?
      chainDepth := ← hops.elim (some standard.chainDepth) readBound? }
  | _ => none

/-- What a document says of the policy. -/
def Policy.read? (d : Document) : Option Policy := do
  match ← d.parts? ["validation", "limits"] with
  | [level, limits] =>
    return {
      strictness := ← level.elim (some standard.strictness) Strictness.read?
      limits := ← limits.elim (some standard.limits) Limits.read? }
  | _ => none

/-- The policy that the text of a document describes. -/
def Policy.parse? (s : String) : Option Policy := do
  read? (← Document.parse s)

end Prototypal
