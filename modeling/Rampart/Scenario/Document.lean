import Rampart.Scenario
import Rampart.Yaml

/-!
# Scenario documents

A scenario as the document that the engine loads: a leaky bucket per source address.

* `Scenario.entries` lists the members of the document.
* `Scenario.document` is its text.
-/

namespace Rampart

/-- A scenario file, ready for a server. -/
structure ScenarioFile where
  name : String
  contents : String
deriving DecidableEq, Repr

namespace Scenario

/-- The members of a scenario's document. -/
def entries (s : Scenario) (capacity : UInt32) (leakSpeed : String) : List (String × Yaml) :=
  [("type", .text "leaky"),
   ("name", .text s.name),
   ("description", .text s.description),
   ("filter", .text s.filter),
   ("groupby", .text "evt.Meta.source_ip"),
   ("capacity", .scalar (toString capacity)),
   ("leakspeed", .text leakSpeed),
   ("blackhole", .text s!"{s.remediation.duration}s"),
   ("labels", .mapping
     [("service", .text "http"),
      ("type", .text "firewall_rule"),
      ("remediation", .scalar "true"),
      ("remediation_type", .text s.remediation.action.name),
      ("remediation_duration", .scalar (toString s.remediation.duration)),
      ("app_uuid", .text (s.uuid?.getD ""))]),
   ("metadata", .mapping (s.metadata.map fun (key, value) => (key, .text value)))]

/-- The text of a scenario's document. -/
def document (s : Scenario) (capacity : UInt32) (leakSpeed : String) : String :=
  Yaml.document (s.entries capacity leakSpeed)

/-- The file of a scenario. -/
def file (s : Scenario) (capacity : UInt32) (leakSpeed : String) : ScenarioFile :=
  ⟨s.fileName, s.document capacity leakSpeed⟩

end Scenario

end Rampart
