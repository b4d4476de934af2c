import Prototypal.Journal.Level
import Prototypal.Settings.Reader

/-!
# Settings

The settings of a run are its policy and the thresholds of its journal.  A document describes the
policy only; the thresholds stay the standard ones.
-/

namespace Prototypal

/-- The settings of a run. -/
structure Settings where
  policy : Policy
  thresholds : Thresholds
deriving DecidableEq, Repr

namespace Settings

/-- The settings that hold until others are fixed. -/
def standard : Settings := ⟨.standard, .standard⟩

/-- The settings that a document describes. -/
def parse? (document : String) : Option Settings :=
  (Policy.parse? document).map fun p => { standard with policy := p }

end Settings

end Prototypal
