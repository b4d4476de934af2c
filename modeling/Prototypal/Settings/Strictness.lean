import Prototypal.Text.Blank

/-!
# Strictness

How much is made of an attribute access that breaks a rule: nothing, a warning in the journal, or
an error that stops the access.
-/

namespace Prototypal

/-- What happens when an attribute access breaks a rule. -/
inductive Strictness where
  /-- Nothing is checked. -/
  | off
  /-- A violation is noted in the journal. -/
  | warn
  /-- A violation is an error. -/
  | strict
deriving DecidableEq, Repr

/-- A word that names no strictness. -/
structure UnknownStrictness where
  word : String
deriving DecidableEq, Repr

/-- The wording of the complaint about an unknown word. -/
def UnknownStrictness.message (u : UnknownStrictness) : String :=
  "unknown validation level `" ++ u.word ++ "` (expected off, warn or strict)"

namespace Strictness

/-- The name of a strictness. -/
def name : Strictness → String
  | off => "off"
  | warn => "warn"
  | strict => "strict"

/-- The number that stands for a strictness. -/
def code : Strictness → Nat
  | off => 0
  | warn => 1
  | strict => 2

/-- The strictness that a number stands for; other numbers stand for no checks. -/
def ofCode : Nat → Strictness
  | 1 => warn
  | 2 => strict
  | _ => off

/-- Whether anything is checked. -/
def isEnabled (s : Strictness) : Bool :=
  s != off

/-- Strictness is ordered by its numbers. -/
def order (a b : Strictness) : Ordering :=
  compare a.code b.code

/-- The strictness of exactly that name. -/
def ofName? (s : String) : Option Strictness :=
  [off, warn, strict].find? fun l => l.name == s

/-- Reads a name or a number.  Blanks around it and the case of letters do not matter. -/
def parse (s : String) : Except UnknownStrictness Strictness :=
  let word := Text.lower (Text.trim s)
  match [off, warn, strict].find? fun l => word == l.name || word == toString l.code with
  | some l => .ok l
  | none => .error ⟨word⟩

end Strictness

end Prototypal
