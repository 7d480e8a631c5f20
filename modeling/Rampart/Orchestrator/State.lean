import Rampart.Alert
import Rampart.Bus
import Rampart.Decision
import Rampart.Install.Plan
import Rampart.Job.Attempt
import Rampart.Server
import Rampart.Store

/-!
# Jobs and the state of the orchestrator

The kinds of work that are done in the background, each with what it has to know, and everything
that requests and jobs share. What a job does is decided by the state that it finds when it runs.
Each function on the state is one atomic step.

* Changes of the store announce themselves on the bus of rule events.
* `Orchestrator.dispatch` gives work to the scheduler.
* A redeploy that a sync asks for stays due until a sync has been carried out (`SyncState`).
-/

namespace Rampart

/-- A job of the orchestrator. -/
inductive Job
  /-- Replace the scenario files of a firewall's application. -/
  | sync (firewall generation : UInt64)
  /-- Make the decisions of a rule. -/
  | applyDecisions (firewall rule : UInt64)
  /-- Lift decisions that were made for a rule. -/
  | removeDecisions (server : UInt64) (decisions : List Decision)
  /-- Register the bouncer of a firewall's application. -/
  | provision (firewall : UInt64)
  /-- Make the proxy of a server forget the decisions that it keeps. -/
  | reloadBouncers (server : UInt64)
  /-- Install a component; the ticket tells whether a newer job has been given the same work. -/
  | install (server : UInt64) (component : Component) (ticket : UInt64)
  /-- Check the components of a server; the round counts the checks that failed before. -/
  | validate (server : UInt64) (round : UInt32)
  /-- Pull the alerts of all servers. -/
  | syncAlerts
deriving DecidableEq, Repr

/-- The name of a job. -/
def Job.name : Job → String
  | sync firewall generation => s!"sync-scenarios-config-{firewall}-gen-{generation}"
  | applyDecisions _ rule => s!"apply-decisions-rule-{rule}"
  | removeDecisions server _ => s!"remove-decisions-server-{server}"
  | provision firewall => s!"provision-bouncer-config-{firewall}"
  | reloadBouncers server => s!"bouncer-reload-server-{server}"
  | install server component _ => s!"install-{component.name}-server-{server}"
  | validate server round => s!"validate-server-{server}-round-{round}"
  | syncAlerts => "sync-engine-alerts"

/-- The syncs of a firewall: only the newest generation is carried out. -/
structure SyncState where
  generation : UInt64 := 0
  /-- A redeploy is due with the next sync that is carried out. -/
  redeployDue : Bool := false
deriving DecidableEq, Repr, Inhabited

/-- The state that requests and jobs share. -/
structure Orchestrator where
  startedAt : Instant := default
  settings : Settings := {}
  registry : Registry := {}
  store : Store := {}
  ruleBus : Bus RuleEvent := .ofCapacity Bus.defaultCapacity
  serverBus : Bus ServerEvent := .ofCapacity Bus.defaultCapacity
  scheduler : Scheduler Job := {}
  syncs : Table UInt64 SyncState := {}
  claims : Claims := {}
  /-- The components that can be installed. -/
  installable : List Component := Component.installable
  feeds : AlertFeeds := .ofSettings {}
  traffic : TrafficBook := {}
  counters : Counters := {}

namespace Orchestrator

/-- An orchestrator that has seen nothing yet. -/
def ofSettings (s : Settings) : Orchestrator where
  settings := s
  feeds := .ofSettings s.alerts

/-! ## Counting and scheduling -/

/-- Count something. -/
def count (counter : Counter) (n : Nat) (s : Orchestrator) : Orchestrator :=
  { s with counters := s.counters.add counter n }

/-- Count something once. -/
def tick (counter : Counter) (s : Orchestrator) : Orchestrator :=
  s.count counter 1

/-- Give work to the scheduler. -/
def dispatch (s : Orchestrator) (job : Job) (queue : Queue) (delay : UInt64)
    (retry : RetryPolicy) : Orchestrator :=
  { s with scheduler := s.scheduler.dispatch { job, queue, retry } delay.toNat }

/-! ## Servers -/

/-- The server of a number. -/
def server (s : Orchestrator) (id : UInt64) : Except Failure Server :=
  s.registry.get id

/-- Add a server. -/
def addServer (s : Orchestrator) (server : Server) : Orchestrator :=
  { s with registry := s.registry.insert server }

/-- Update a server; gives it as it is then. -/
def applyUpdate (s : Orchestrator) (id : UInt64) (u : StatusUpdate) :
    Except Failure Server × Orchestrator :=
  match s.registry.apply id u with
  | .ok (server, registry) => (.ok server, { s with registry })
  | .error e => (.error e, s)

/-- Announce an event of a server; gives the number of those who hear it. -/
def announceServer (s : Orchestrator) (e : ServerEvent) : Nat × Orchestrator :=
  let (receivers, serverBus) := s.serverBus.publish e
  (receivers, { s with serverBus })

/-! ## The store -/

/-- Announce an event of a rule; gives the number of those who hear it. -/
def announce (s : Orchestrator) (e : RuleEvent) : Nat × Orchestrator :=
  let (receivers, ruleBus) := s.ruleBus.publish e
  (receivers, { s with ruleBus })

/-- Take over a changed store and announce the change. -/
def commit {α : Type} (s : Orchestrator) (change : Except Failure (α × RuleEvent × Store)) :
    Except Failure α × Orchestrator :=
  match change with
  | .ok (a, event, store) => (.ok a, ({ s with store }.announce event).2)
  | .error e => (.error e, s)

/-- Take in an application with its firewall. -/
def register (s : Orchestrator) (application : Application) (firewall : Firewall) :
    Except Failure Unit × Orchestrator :=
  match s.store.register application firewall with
  | .ok store => (.ok (), { s with store })
  | .error e => (.error e, s)

/-- Change the switches of an application's firewall. -/
def updateFirewall (s : Orchestrator) (uuid : String) (u : FirewallUpdate) :
    Except Failure Firewall × Orchestrator :=
  s.commit (s.store.updateFirewall uuid u)

/-- Note the bouncer that the engine knows, with its credential. -/
def recordBouncer (s : Orchestrator) (firewall : UInt64) (name key : String) :
    Except Failure Firewall × Orchestrator :=
  s.commit (s.store.recordBouncer firewall name key)

/-- Save a rule of an application. -/
def saveRule (s : Orchestrator) (uuid : String) (rule : Rule) :
    Except Failure Rule × Orchestrator :=
  let (result, counter, store) := s.store.saveRule s.settings.scenarios uuid rule
  let s := { s with store }
  let s := match counter with
    | some counter => s.tick counter
    | none => s
  match result with
  | .ok saved => (.ok saved.rule, (s.announce saved.event).2)
  | .error e => (.error e, s)

/-- Delete a rule of an application. -/
def deleteRule (s : Orchestrator) (uuid : String) (id : UInt64) :
    Except Failure Rule × Orchestrator :=
  s.commit (s.store.deleteRule uuid id)

/-- What the deployment of a firewall depends on. -/
def contextOf (s : Orchestrator) (firewall : UInt64) : Except Failure Context :=
  s.store.contextOf s.registry firewall

/-- What the deployment of an application depends on. -/
def contextFor (s : Orchestrator) (uuid : String) : Except Failure Context :=
  s.store.contextFor s.registry uuid

end Orchestrator

end Rampart
