import Rampart.Json.Encode
import Rampart.Server
import Rampart.Traffic

/-!
# Metrics

What is counted while the program works.

* `Counter` is something that is counted; `Counter.name` is its name, with a label in braces where
  one metric is counted by kind.
* `Counters.add` counts, `Counters.get` reads.
* `Metric.catalog` describes every metric.
-/

namespace Rampart

/-- How an attempt of a job ends. -/
inductive JobEnd
  | completed
  /-- There was nothing to do. -/
  | skipped
  /-- Another attempt follows. -/
  | retried
  | failed
deriving DecidableEq, Repr, Inhabited

/-- The name of an end. -/
def JobEnd.name : JobEnd → String
  | completed => "completed"
  | skipped => "skipped"
  | retried => "retried"
  | failed => "failed"

/-- Something that is counted. -/
inductive Counter
  | rulesCompiled
  | compilationErrors
  | scenariosUploaded
  | decisionsCreated
  | bouncersProvisioned
  | alertsSynced
  | jobs (result : JobEnd)
  | installs (component : Component)
  | installFailures (component : Component)
  | validations (passed : Bool)
  | requests (outcome : Outcome)
deriving DecidableEq, Repr

namespace Counter

/-- The metric that is counted. -/
def metric : Counter → String
  | rulesCompiled => "bastion_rules_compiled_total"
  | compilationErrors => "bastion_compilation_errors_total"
  | scenariosUploaded => "bastion_scenarios_uploaded_total"
  | decisionsCreated => "bastion_decisions_created_total"
  | bouncersProvisioned => "bastion_bouncers_provisioned_total"
  | alertsSynced => "bastion_alerts_synced_total"
  | jobs _ => "bastion_jobs_total"
  | installs _ => "bastion_component_installs_total"
  | installFailures _ => "bastion_component_failures_total"
  | validations _ => "bastion_validations_total"
  | requests _ => "bastion_traffic_requests_total"

/-- The label by which a metric is counted, with its value. -/
def label? : Counter → Option (String × String)
  | jobs result => some ("outcome", result.name)
  | installs component => some ("component", component.name)
  | installFailures component => some ("component", component.name)
  | validations passed => some ("outcome", if passed then "validated" else "failed")
  | requests outcome => some ("outcome", outcome.name)
  | _ => none

/-- The name of a counter. -/
def name (c : Counter) : String :=
  match c.label? with
  | some (label, value) => c.metric ++ "\x7b" ++ label ++ "=" ++ value ++ "\x7d"
  | none => c.metric

end Counter

/-- How often things were counted. -/
structure Counters where
  entries : List (Counter × Nat) := []
deriving DecidableEq, Repr, Inhabited

namespace Counters

/-- How often something was counted. -/
def get (cs : Counters) (c : Counter) : Nat :=
  (cs.entries.lookup c).getD 0

/-- Count something a number of times. -/
def add (cs : Counters) (c : Counter) (n : Nat) : Counters :=
  ⟨(c, cs.get c + n) :: cs.entries.filter (·.1 != c)⟩

/-- Count something once. -/
def tick (cs : Counters) (c : Counter) : Counters :=
  cs.add c 1

end Counters

instance : Encode Counters where
  encode cs := .obj ((cs.entries.filter (·.2 != 0)).map fun (c, n) => Json.member c.name n)

namespace Metric

/-- Every metric that counts, with its description. -/
def counters : List (String × String) :=
  [("bastion_rules_compiled_total", "Rules compiled successfully"),
   ("bastion_compilation_errors_total", "Rules rejected by the condition compiler"),
   ("bastion_scenarios_uploaded_total", "Scenario files uploaded to managed servers"),
   ("bastion_decisions_created_total", "Ban decisions submitted to the engine"),
   ("bastion_bouncers_provisioned_total", "Application bouncers registered on the engine"),
   ("bastion_alerts_synced_total", "Engine alerts attributed to an application and recorded"),
   ("bastion_jobs_total", "Background jobs by outcome"),
   ("bastion_component_installs_total", "Security components installed, by component"),
   ("bastion_component_failures_total",
    "Security component installs that failed permanently, by component"),
   ("bastion_validations_total", "Installation validation passes by outcome"),
   ("bastion_traffic_requests_total",
    "Proxied requests reported by traffic loggers, by outcome")]

/-- Every metric that tells a current number, with its description. -/
def gauges : List (String × String) :=
  [("bastion_servers_total", "Servers in the registry"),
   ("bastion_servers_validated", "Servers whose installation is validated"),
   ("bastion_jobs_pending", "Jobs queued, delayed or running")]

/-- Every metric, with its kind in front of its name. -/
def catalog : List (String × String) :=
  counters.map (fun (name, text) => ("counter " ++ name, text)) ++
    gauges.map fun (name, text) => ("gauge " ++ name, text)

end Metric

end Rampart
