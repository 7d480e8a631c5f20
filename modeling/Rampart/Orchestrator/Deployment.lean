import Rampart.Engine.Client
import Rampart.Orchestrator.State
import Rampart.Scenario.Upload

/-!
# The deployment of rules

What follows when rules and firewalls change. Nothing is deployed for a firewall that is not
active; one that lacks a bouncer gets one first, and that announces a change of its own.

* `Orchestrator.handleEvent` plans the jobs of an event, `Orchestrator.resync` those of everything
  there is, for when events were lost. Both tell what they planned.
* `Deploy.sync`, `Deploy.applyDecisions`, `Deploy.removeDecisions`, `Deploy.provision` and
  `Deploy.reloadBouncers` are the jobs.
* A sync is superseded by any later one of its firewall, also while it waits for the lock.
-/

namespace Rampart

/-- What was planned for an event. -/
inductive DeployAction
  | skipped (reason : String)
  | provision (firewall : UInt64)
  | applyDecisions (rule : UInt64)
  | removeDecisions (rule : UInt64) (count : Nat)
  | sync (firewall generation : UInt64) (redeploy : Bool)
deriving DecidableEq, Repr

/-- The name of an application's bouncer. -/
def bouncerName (uuid : String) : String :=
  s!"app-{uuid}"

/-- A plan: a state in which jobs were given to the scheduler, and what they are for. -/
abbrev Planned := List DeployAction × Orchestrator

namespace Orchestrator

/-! ## Planning -/

/-- Give a deployment job to the scheduler. -/
def dispatchDeploy (s : Orchestrator) (job : Job) (delay : UInt64) : Orchestrator :=
  s.dispatch job .security delay s.settings.deployment.retry

/-- Plan the registration of a bouncer. -/
def planProvision (s : Orchestrator) (firewall : UInt64) : Planned :=
  ([.provision firewall], s.dispatchDeploy (.provision firewall) 0)

/-- Plan the decisions of a rule. -/
def planDecisions (s : Orchestrator) (firewall rule : UInt64) : Planned :=
  ([.applyDecisions rule],
   s.dispatchDeploy (.applyDecisions firewall rule) s.settings.deployment.decisionDelay)

/-- Plan the lifting of decisions, if there are any. -/
def planRemoval (s : Orchestrator) (server rule : UInt64) (decisions : List Decision) : Planned :=
  if decisions.isEmpty then ([], s)
  else
    ([.removeDecisions rule decisions.length],
     s.dispatchDeploy (.removeDecisions server decisions) s.settings.deployment.decisionDelay)

/-- The syncs of a firewall so far. -/
def syncState (s : Orchestrator) (firewall : UInt64) : SyncState :=
  (s.syncs.get? firewall).getD {}

/-- Plan a sync that supersedes all before; a redeploy that is due stays so. -/
def planSync (s : Orchestrator) (firewall : UInt64) (redeploy : Bool) : Planned :=
  let before := s.syncState firewall
  let generation := before.generation + 1
  let after : SyncState := ⟨generation, before.redeployDue || redeploy⟩
  ([.sync firewall generation redeploy],
   { s with syncs := s.syncs.insert firewall after }.dispatchDeploy (.sync firewall generation) 0)

/-- One plan after another. -/
def planBoth (first : Planned) (second : Orchestrator → Planned) : Planned :=
  let (actions, s) := second first.2
  (first.1 ++ actions, s)

/-- The decisions of a rule; a rule that does not compile has none. -/
def bansOf (s : Orchestrator) (c : Context) (rule : Rule) : List Decision :=
  match c.decisions s.settings.scenarios rule with
  | .ok decisions => decisions
  | .error _ => []

/-- The version of a rule whose decisions may still be on the engine: the one that was replaced,
or the rule itself when it is switched off and nothing is known about it before. -/
def liftedFrom? (rule : Rule) : (previous : Option Rule) → Option Rule
  | some previous => if previous.isBan then some previous else none
  | none => if rule.isBan && !rule.enabled then some rule else none

/-- Plan what follows a saved rule. -/
def planSave (s : Orchestrator) (c : Context) (firewall : UInt64) (rule : Rule)
    (previous : Option Rule) : Planned :=
  let bans := rule.isBan && rule.enabled
  let wanted := if bans then s.bansOf c rule else []
  let stale := match liftedFrom? rule previous with
    | some old => (s.bansOf c old).filter fun d => !wanted.any fun w => w.ip = d.ip
    | none => []
  let hadScenario := match previous with
    | some previous => !previous.isBan
    | none => false
  planBoth (s.planRemoval c.server.id rule.id stale) fun s =>
    planBoth (if bans then s.planDecisions firewall rule.id else ([], s)) fun s =>
      if !rule.isBan || hadScenario then s.planSync firewall true else ([], s)

/-- Plan what follows a deleted rule. -/
def planDelete (s : Orchestrator) (c : Context) (firewall : UInt64) (rule : Rule) : Planned :=
  let stale := if rule.isBan then s.bansOf c rule else []
  planBoth (s.planRemoval c.server.id rule.id stale) fun s => s.planSync firewall false

/-- Plan what follows an event. -/
def handleEvent (s : Orchestrator) (e : RuleEvent) : Planned :=
  match s.contextOf e.firewall with
  | .error failure => ([.skipped failure.message], s)
  | .ok c =>
    let changed := match e with
      | .firewallChanged _ => true
      | _ => false
    if changed && c.firewall.needsBouncer then s.planProvision e.firewall
    else if !c.firewall.isActive then ([.skipped "firewall inactive"], s)
    else match e with
      | .saved id firewall previous => match c.rule? id with
        | some rule => s.planSave c firewall rule previous
        | none => ([.skipped s!"rule {id} no longer exists"], s)
      | .deleted rule firewall => s.planDelete c firewall rule
      | .firewallChanged firewall => s.planSync firewall true

/-- Plan the decisions of several rules. -/
def planAllDecisions (s : Orchestrator) (firewall : UInt64) (rules : List Rule) : Planned :=
  rules.foldl (fun plan rule => planBoth plan fun s => s.planDecisions firewall rule.id) ([], s)

/-- Plan the deployment of a firewall from scratch. -/
def resyncOne (s : Orchestrator) (firewall : UInt64) : Planned :=
  match s.contextOf firewall with
  | .error _ => ([], s)
  | .ok c =>
    if c.firewall.needsBouncer then s.planProvision firewall
    else if !c.firewall.isActive then ([], s)
    else planBoth (s.planSync firewall true) fun s => s.planAllDecisions firewall c.banRules

/-- Plan the deployment of everything from scratch. -/
def resync (s : Orchestrator) : Planned :=
  s.store.firewallIds.foldl (fun plan firewall => planBoth plan (·.resyncOne firewall)) ([], s)

/-! ## What the jobs ask -/

/-- Whether a later sync of the firewall has been planned. -/
def isSuperseded (s : Orchestrator) (firewall generation : UInt64) : Bool :=
  (s.syncState firewall).generation > generation

/-- Whether a redeploy is due; it is not any more afterwards. -/
def takeRedeploy (s : Orchestrator) (firewall : UInt64) : Bool × Orchestrator :=
  match s.syncs.get? firewall with
  | some state =>
    (state.redeployDue,
     { s with syncs := s.syncs.insert firewall { state with redeployDue := false } })
  | none => (false, s)

/-- The context of an active firewall. -/
def activeContext (s : Orchestrator) (firewall : UInt64) : Except Failure Context := do
  let c ← s.contextOf firewall
  if c.firewall.isActive then return c
  else throw (.configuration s!"firewall for {c.uuid} is inactive")

/-- The client of the engines. -/
def engine (s : Orchestrator) : Engine.Client :=
  ⟨s.settings.engine⟩

/-- The directory of the scenario files. -/
def scenarioDir (s : Orchestrator) : ScenarioDir :=
  .ofPath s.settings.engine.scenarioDir

/-- How often the proxy's memory of decisions is tried to be dropped. -/
def reloadRetry : RetryPolicy :=
  .ofSeconds 2 [10] none

/-- Give the scheduler the job that makes a server's proxy forget the decisions that it keeps. -/
def dispatchReload (s : Orchestrator) (server : UInt64) : Orchestrator :=
  s.dispatch (.reloadBouncers server) .security s.settings.deployment.bouncerReloadDelay
    reloadRetry

end Orchestrator

/-! ## Jobs -/

namespace Deploy

open Orchestrator

/-- Tasks of the orchestrator. -/
abbrev Work := Task Orchestrator

/-- Ask for a redeploy if one is due. A redeploy that cannot be asked for is given up. -/
def redeployIfDue (firewall application : UInt64) : Work Unit := do
  if ← Task.modifyGet fun s => let (due, s) := s.takeRedeploy firewall; (.ok due, s) then
    let _ ← Task.attempt (Task.tell (.redeploy application false))

/-- Replace the scenario files of a firewall's application by those of its rules. -/
def sync (firewall generation : UInt64) : Work Unit := do
  if ← Task.read fun s => .ok (s.isSuperseded firewall generation) then return
  let (c, files, engine, dir) ← Task.read fun s => do
    let c ← s.activeContext firewall
    let files ← Failure.ofRule (c.files s.settings.scenarios)
    return (c, files, s.engine, s.scenarioDir)
  let written ← dir.replace c.server c.uuid files
    (fun s => !s.isSuperseded firewall generation) Orchestrator.count
  if !written then return
  engine.reload c.server
  redeployIfDue firewall c.application.id
  Task.modify (·.dispatchReload c.server.id)

/-- Whether the engine has a decision. -/
def isPresent (engine : Engine.Client) (server : Server) (d : Decision) : Work Bool := do
  let existing ← engine.decisions server d.ip
  return existing.any fun e => e.value = d.ip && e.scenario = d.reason

/-- Make the decisions that the engine does not have. -/
def addMissing (engine : Engine.Client) (server : Server) : List Decision → Work Unit
  | [] => return
  | d :: ds => do
    if !(← isPresent engine server d) then
      engine.addDecision server d
      Task.modify (·.tick .decisionsCreated)
    addMissing engine server ds

/-- Make the decisions of a rule that is in force. -/
def applyDecisions (firewall rule : UInt64) : Work Unit := do
  let (c, engine, decisions) ← Task.read fun s => do
    let c ← s.activeContext firewall
    match (c.rule? rule).filter fun rule => rule.isBan && rule.enabled with
    | none => return (c, s.engine, none)
    | some rule =>
      let decisions ← Failure.ofRule (c.decisions s.settings.scenarios rule)
      return (c, s.engine, some decisions)
  match decisions with
  | none => return
  | some decisions =>
    addMissing engine c.server decisions
    Task.modify (·.dispatchReload c.server.id)

/-- Lift what the engine has of a decision. -/
def removeListed (engine : Engine.Client) (server : Server) (reason : String) :
    List Engine.Decision → Work Unit
  | [] => return
  | e :: es => do
    if e.scenario = reason then engine.removeDecision server e.id
    removeListed engine server reason es

/-- Lift what the engine has of some decisions. -/
def removeAll (engine : Engine.Client) (server : Server) : List Decision → Work Unit
  | [] => return
  | d :: ds => do
    removeListed engine server d.reason (← engine.decisions server d.ip)
    removeAll engine server ds

/-- Lift decisions that were made for a rule. -/
def removeDecisions (server : UInt64) (decisions : List Decision) : Work Unit := do
  let (server, engine) ← Task.read fun s => do return (← s.server server, s.engine)
  removeAll engine server decisions

/-- Register the bouncer of a firewall's application, under its credential if it has one. -/
def provision (firewall : UInt64) : Work Unit := do
  let (c, engine) ← Task.read fun s => do return (← s.contextOf firewall, s.engine)
  if !c.firewall.needsBouncer then return
  let name := bouncerName c.uuid
  let own := Text.trimmed c.firewall.apiKey
  let key ← engine.register c.server name (if own.isEmpty then none else some own)
  let _ ← Task.modifyGet (·.recordBouncer firewall name key)
  Task.modify (·.tick .bouncersProvisioned)

/-- Make the proxy of a server forget the decisions that it keeps. -/
def reloadBouncers (server : UInt64) : Work Unit := do
  let (server, engine) ← Task.read fun s => do return (← s.server server, s.engine)
  engine.reloadBouncers server

end Deploy

end Rampart
