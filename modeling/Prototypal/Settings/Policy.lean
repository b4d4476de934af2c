import Prototypal.Json
import Prototypal.Settings.Strictness

/-!
# The policy of a run

A policy fixes the strictness that a run starts with and the two limits that keep every run
finite: how deep calls may nest, and how many hops an ancestor walk may take.
-/

namespace Prototypal

/-- The limits of a run. -/
structure Limits where
  /-- How many calls may be nested. -/
  callDepth : UInt64
  /-- How many hops an ancestor walk may take. -/
  chainDepth : UInt64
deriving DecidableEq, Repr

/-- The limits that hold unless others are given. -/
def Limits.standard : Limits := ⟨256, 256⟩

/-- What a run starts from. -/
structure Policy where
  strictness : Strictness
  limits : Limits
deriving DecidableEq, Repr

namespace Policy

/-- The policy that holds unless another is given. -/
def standard : Policy := ⟨.off, .standard⟩

/-- A policy as a document that reads back to it. -/
def toJson (p : Policy) : Json :=
  .record [
    ("validation", .text p.strictness.name),
    ("limits", .record [
      ("max_call_depth", .nat p.limits.callDepth.toNat),
      ("max_chain_depth", .nat p.limits.chainDepth.toNat)])]

end Policy

end Prototypal
