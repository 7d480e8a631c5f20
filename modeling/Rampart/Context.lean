import Rampart.Decision
import Rampart.Metric
import Rampart.Rule.Wire
import Rampart.Scenario.Document
import Rampart.Server.Wire
import Rampart.Settings

/-!
# Deployment contexts

Everything that the deployment of one application depends on, taken together once: compilation
and labels are functions of it.

* `Context.of` sorts the rules by priority and then by number.
* `Context.scenarios` compiles every enabled rule that is not a ban; the first fault ends it.
* `Context.decisions` are the decisions of one ban rule.
-/

namespace Rampart

/-- An application with its firewall, its rules and its server. -/
structure Context where
  application : Application
  firewall : Firewall
  /-- By priority, then by number. -/
  rules : List Rule
  server : Server
deriving DecidableEq, Repr, Inhabited

/-- Whether a rule comes before another, or is as early. -/
def Rule.isBefore (a b : Rule) : Bool :=
  a.priority < b.priority || (a.priority == b.priority && a.id ≤ b.id)

namespace Context

/-- A context with its rules in order. -/
def of (application : Application) (firewall : Firewall) (rules : List Rule) (server : Server) :
    Context :=
  ⟨application, firewall, rules.mergeSort Rule.isBefore, server⟩

/-- The uuid of the application. -/
def uuid (c : Context) : String :=
  c.application.uuid

/-- The enabled rules that become scenarios. -/
def scenarioRules (c : Context) : List Rule :=
  c.rules.filter fun rule => rule.enabled && !rule.isBan

/-- The enabled rules that become decisions. -/
def banRules (c : Context) : List Rule :=
  c.rules.filter fun rule => rule.enabled && rule.isBan

/-- The rule of a number. -/
def rule? (c : Context) (id : UInt64) : Option Rule :=
  c.rules.find? (·.id == id)

/-- Whether an enabled rule is about paths only. -/
def hasPathOnlyRule (c : Context) : Bool :=
  c.rules.any fun rule => rule.enabled && rule.mode == .pathOnly

/-- The scenarios of all rules that become one. -/
def scenarios (c : Context) (s : Settings.Scenarios) : Except RuleFault (List Scenario) :=
  c.scenarioRules.mapM fun rule => scenarioOf s.ns c.uuid rule (rule.durationIn c.firewall)

/-- The files of all scenarios. -/
def files (c : Context) (s : Settings.Scenarios) : Except RuleFault (List ScenarioFile) :=
  (c.scenarios s).map fun scenarios => scenarios.map (·.file s.capacity s.leakSpeed)

/-- The decisions of a ban rule. -/
def decisions (c : Context) (s : Settings.Scenarios) (rule : Rule) :
    Except RuleFault (List Decision) := do
  checkUuid c.uuid
  decisionsOf s.ns c.uuid rule (rule.durationIn c.firewall)

end Context

instance : Encode Context where
  encode c := .obj [Json.member "application" c.application, Json.member "config" c.firewall,
    Json.member "rules" c.rules, Json.member "server" c.server]

/-! ## Single rules -/

/-- What a rule becomes. -/
inductive Product
  | scenario (s : Scenario)
  | decisions (ds : List Decision)
deriving DecidableEq, Repr

/-- Compile a rule of an application. -/
def Rule.compile (rule : Rule) (s : Settings.Scenarios) (uuid : String) (firewall : Firewall) :
    Except RuleFault Product := do
  if rule.isBan then
    checkUuid uuid
    return .decisions (← decisionsOf s.ns uuid rule (rule.durationIn firewall))
  else return .scenario (← scenarioOf s.ns uuid rule (rule.durationIn firewall))

/-- What a rule counts for when it is compiled; a ban for an impossible uuid counts for nothing. -/
def Rule.compileCount (rule : Rule) (uuid : String) : Except RuleFault Product → Option Counter
  | .ok _ => some .rulesCompiled
  | .error _ => if rule.isBan && !isUuid uuid then none else some .compilationErrors

end Rampart
