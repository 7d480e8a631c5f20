import Rampart.Engine.Client
import Rampart.Json.Encode
import Rampart.Orchestrator.State

/-!
# Audits

The scenarios that an application should have, beside those that the engine of its server has
loaded under the application's name.

* `Audit.of` compares two lists of names.
* `Audit.run` takes them from the rules and from the engine.
-/

namespace Rampart

/-- The result of an audit; all names are in order. -/
structure Audit where
  uuid : String
  server : UInt64
  /-- Made from the rules; none while the firewall is not active. -/
  expected : List String
  /-- Loaded by the engine. -/
  deployed : List String
  missing : List String
  orphaned : List String
  inSync : Bool
deriving DecidableEq, Repr

namespace Audit

/-- Texts in order, each once. -/
def sorted (names : List String) : List String :=
  (names.mergeSort fun a b => !decide (b < a)).eraseReps

/-- Compare names that are expected with names that are deployed. -/
def of (uuid : String) (server : UInt64) (expected deployed : List String) : Audit :=
  let expected := sorted expected
  let deployed := sorted deployed
  let missing := expected.filter fun name => !deployed.contains name
  let orphaned := deployed.filter fun name => !expected.contains name
  ⟨uuid, server, expected, deployed, missing, orphaned, missing.isEmpty && orphaned.isEmpty⟩

/-- What the names of an application's scenarios start with. -/
def start (ns uuid : String) : String :=
  s!"{ns}/{uuid}/"

/-- The names that an application's scenarios should have. -/
def expectedNames (c : Context) (s : Settings.Scenarios) : Except RuleFault (List String) :=
  if c.firewall.isActive then (c.scenarios s).map (·.map (·.name)) else .ok []

/-- The names under an application, of all that an engine has loaded. -/
def ownNames (ns uuid : String) (loaded : List String) : List String :=
  loaded.filter fun name => (start ns uuid).toList.isPrefixOf name.toList

/-- Audit an application. -/
def run (uuid : String) : Task Orchestrator Audit := do
  let (c, expected, ns, engine) ← Task.read fun s => do
    let c ← s.contextFor uuid
    let expected ← Failure.ofRule (expectedNames c s.settings.scenarios)
    return (c, expected, s.settings.scenarios.ns, (⟨s.settings.engine⟩ : Engine.Client))
  let loaded ← engine.scenarios c.server
  return .of c.uuid c.server.id expected (ownNames ns c.uuid loaded)

end Audit

instance : Encode Audit where
  encode a := .obj [Json.member "app_uuid" a.uuid, Json.member "server_id" a.server,
    Json.member "expected" a.expected, Json.member "deployed" a.deployed,
    Json.member "missing" a.missing, Json.member "orphaned" a.orphaned,
    Json.member "in_sync" a.inSync]

end Rampart
