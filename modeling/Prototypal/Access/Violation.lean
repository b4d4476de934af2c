import Prototypal.Graph.Payload

/-!
# Violations

An attribute access can break a rule before it is carried out, by its key or by what it stores,
and afterwards, by what it produced.  A `Violation` says which rule, and its wording is the same
in the journal and in errors.
-/

namespace Prototypal

/-- The name of the attribute of a coercion. -/
def Coercion.attributeName (c : Coercion) : String :=
  Names.predefined.text c.symbol

/-- The rules that an access can break. -/
inductive Problem where
  /-- The key is the empty name. -/
  | emptyName
  /-- The key is an object with the Null payload. -/
  | nullKey
  /-- The new parent already has the receiver among its ancestors. -/
  | inheritsReceiver (parent : ObjectId)
  /-- The new stepparents are no List. -/
  | stepparentsNotList (found : Kind)
  /-- A coercion attribute answered with a payload of another kind. -/
  | wrongAnswer (c : Coercion) (found : Kind)
deriving DecidableEq, Repr

/-- The wording of a problem. -/
def Problem.message : Problem → String
  | emptyName => "attribute name is empty"
  | nullKey => "null used as an attribute key"
  | inheritsReceiver p => "parent #" ++ toString p ++ " already inherits from the receiver"
  | stepparentsNotList found => "stepparents must be a List (got " ++ found.name ++ ")"
  | wrongAnswer c found =>
    c.attributeName ++ " didn't return " ++ c.expected.name ++ " (got " ++ found.name ++ ")"

/-- A rule broken by an access to an attribute of the receiver. -/
structure Violation where
  access : Access
  receiver : ObjectId
  problem : Problem
deriving DecidableEq, Repr

/-- The wording of a violation. -/
def Violation.message (v : Violation) : String :=
  v.access.name ++ " on #" ++ toString v.receiver ++ ": " ++ v.problem.message

end Prototypal
