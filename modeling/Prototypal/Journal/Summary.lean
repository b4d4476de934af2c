import Prototypal.Journal.Level
import Prototypal.Json

/-!
# Summaries of thresholds

What a set of thresholds lets through, component by component and for given targets.
-/

namespace Prototypal

namespace Component

/-- The components with their targets. -/
def summary : Json :=
  .array (all.map fun c => .record [("name", .text c.name), ("target", .text c.target)])

end Component

namespace Thresholds

/-- The names of the levels that are let through for a target. -/
def enabledJson (t : Thresholds) (target : String) : Json :=
  .array ((t.enabledAt target).map fun l => .text l.name)

/-- What is let through for a component. -/
def componentJson (t : Thresholds) (c : Component) : Json :=
  .record [
    ("debug_enabled", .bool (t.enables c.target .debug)),
    ("level", .text (t.levelFor c).name),
    ("name", .text c.name),
    ("would_enable", t.enabledJson c.target)]

/-- What is let through for a target. -/
def targetJson (t : Thresholds) (target : String) : Json :=
  .record [("target", .text target), ("would_enable", t.enabledJson target)]

/-- What is let through in general, for each component, and for the given targets. -/
def summary (t : Thresholds) (targets : List String) : Json :=
  .record [
    ("components", .array (Component.all.map t.componentJson)),
    ("default", .text t.general.lowerName),
    ("probe", .array (targets.map t.targetJson))]

end Thresholds

end Prototypal
