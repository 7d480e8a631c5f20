import Rampart.Install.Installer
import Rampart.Orchestrator.State

/-!
# Bringing servers up

A new server gets the components by plan, each by a job of its own that writes only the flags of
its component. A server that becomes reachable gets what is missing at once. Validation checks all
components and installs nothing; it is repeated for a limited number of times while something is
wrong.

* `Orchestrator.planCreated` and `Orchestrator.planReachable` give the jobs to the scheduler.
* `Bootstrap.install` and `Bootstrap.validate` are the jobs, `Bootstrap.installFailed` is what
  follows when an installation has failed for good.
-/

namespace Rampart

namespace Orchestrator

/-- The plan of installation. -/
def plan (s : Orchestrator) : InstallPlan :=
  .ofSettings s.settings.bootstrap

/-- Give the scheduler the job of a component; not if an installation of it runs. -/
def dispatchStep (s : Orchestrator) (server : UInt64) (component : Component) (queue : Queue)
    (delay : UInt64) (retry : RetryPolicy) : Bool × Orchestrator :=
  if component = .validator then
    (true, s.dispatch (.validate server 0) queue delay retry)
  else
    let (ticket, claims) := s.claims.claim server component
    let s := { s with claims }
    match ticket with
    | some ticket => (true, s.dispatch (.install server component ticket) queue delay retry)
    | none => (false, s)

/-- Dispatch the jobs of several components; gives those for which there is one now. -/
def dispatchSteps (step : Orchestrator → Component → Bool × Orchestrator) :
    Orchestrator → List Component → List Component × Orchestrator
  | s, [] => ([], s)
  | s, component :: components =>
    let (dispatched, s) := step s component
    let (others, s) := dispatchSteps step s components
    (if dispatched then component :: others else others, s)

/-- Plan the installation of a new server; gives the components that are planned. -/
def planCreated (s : Orchestrator) (id : UInt64) :
    Except Failure (List Component) × Orchestrator :=
  match s.applyUpdate id (.progress .requested) with
  | (.error e, s) => (.error e, s)
  | (.ok server, s) =>
    let due := s.plan.steps.filter fun step =>
      step.component = .validator || !step.component.isInstalled server.status
    let (planned, s) := dispatchSteps (fun s component =>
      match s.plan.step? component with
      | some step => s.dispatchStep id component step.queue step.offset step.retry
      | none => (false, s)) s (due.map (·.component))
    (.ok planned, s)

/-- Plan the installation of what is missing, at once; gives the components that are planned. -/
def planReachable (s : Orchestrator) (id : UInt64) :
    Except Failure (List Component) × Orchestrator :=
  match s.server id with
  | .error e => (.error e, s)
  | .ok server =>
    let (planned, s) := dispatchSteps (fun s component =>
      let retry := ((s.plan.step? component).map (·.retry)).getD .single
      s.dispatchStep id component .high 0 retry) s server.status.missing
    (.ok planned, s)

/-- Plan what follows an event of a server; an unknown server is passed over. -/
def handleServerEvent (s : Orchestrator) (e : ServerEvent) : Orchestrator :=
  match e with
  | .created server => (s.planCreated server).2
  | .becameReachable server => (s.planReachable server).2

/-- Plan another validation after one that found something wrong, up to the limit. -/
def planRevalidation (s : Orchestrator) (server : UInt64) (round : UInt32) : Orchestrator :=
  if round ≥ s.settings.bootstrap.maxRevalidations then s
  else s.dispatch (.validate server (round + 1)) .security s.settings.bootstrap.revalidateAfter
    .single

/-- The installer of a component, if there is one. -/
def installerOf? (s : Orchestrator) (component : Component) : Option Install.Installer :=
  if s.installable.contains component then some ⟨s.settings.engine, s.settings.bouncer⟩ else none

end Orchestrator

namespace Bootstrap

/-- Tasks of the orchestrator. -/
abbrev Work := Task Orchestrator

/-- Update a server. -/
def apply (server : UInt64) (u : StatusUpdate) : Work Server :=
  Task.modifyGet (·.applyUpdate server u)

/-- Update a server several times. -/
def applyAll (server : UInt64) : List StatusUpdate → Work Unit
  | [] => return
  | u :: us => do
    let _ ← apply server u
    applyAll server us

/-! ## Installing -/

/-- Change the claims. -/
def changeClaims (f : Claims → Claims) : Work Unit :=
  Task.modify fun s => { s with claims := f s.claims }

/-- Begin an installation, if the ticket is the newest. -/
def begin (server : UInt64) (component : Component) (ticket : UInt64) : Work Bool :=
  Task.modifyGet fun s =>
    let (begun, claims) := s.claims.start server component ticket
    (.ok begun, { s with claims })

/-- Install a component and write its flags. -/
def installNow (server : UInt64) (component : Component) : Work Unit := do
  let installer ← Task.read fun s => match s.installerOf? component with
    | some installer => .ok installer
    | none => .error (.configuration s!"no installer for {component.name}")
  let target ← apply server (.progress (.installing component))
  let extra ← installer.install component target
  let _ ← apply server (.installed component true)
  applyAll server extra
  Task.modify (·.tick (.installs component))

/-- Install a component, unless it is installed or a newer job has the work. -/
def install (server : UInt64) (component : Component) (ticket : UInt64) : Work Unit := do
  let target ← Task.read (·.server server)
  if component.isInstalled target.status then
    changeClaims (·.release server component ticket)
  else if ← begin server component ticket then
    match ← Task.attempt (installNow server component) with
    | .ok () => changeClaims (·.release server component ticket)
    | .error failure =>
      changeClaims (·.pause server component ticket)
      throw failure

/-- Note that a component could not be installed, and tell the outside. -/
def recordFailure (server : UInt64) (component : Component) (failure : Failure) : Work Unit := do
  Task.modify (·.tick (.installFailures component))
  let _ ← apply server (.installed component false)
  let target ← apply server (.progress (.failed component))
  Task.tell (.failed target component failure)

/-- What follows when an installation has failed for good. -/
def installFailed (server : UInt64) (component : Component) (ticket : UInt64)
    (failure : Failure) : Process Orchestrator Unit := do
  let _ ← (changeClaims (·.release server component ticket)).process
  let _ ← (recordFailure server component failure).process

/-! ## Validation -/

/-- The health of components: one that cannot be installed has none. -/
def healthOf (checks : List (Component × Option Install.Check)) :
    (answers : List (Except Failure String)) → List (Component × Health) :=
  match checks with
  | [] => fun _ => []
  | (component, none) :: checks => fun answers =>
    (component, ⟨false, "no installer registered"⟩) :: healthOf checks answers
  | (component, some check) :: checks => fun
    | answer :: answers => (component, check.health answer) :: healthOf checks answers
    | [] => []

/-- Check all components side by side. -/
def checkAll (target : Server) : Work (List (Component × Health)) := do
  let checks ← Task.read fun s => .ok (Component.installable.map fun component =>
    (component, (s.installerOf? component).map (·.check component)))
  let calls := checks.filterMap fun (_, check) =>
    check.map fun check => (target, Remote.Call.run check.command)
  return healthOf checks (← Task.callAll calls)

/-- Check all components and write what was found. -/
def validate (server : UInt64) (round : UInt32) : Work Unit := do
  let target ← apply server (.progress .validating)
  let results ← checkAll target
  applyAll server (results.map fun (component, health) => .checked component health)
  let firstFailure := (results.find? fun (_, health) => !health.healthy).map (·.1)
  let validated := firstFailure.isNone
  let _ ← apply server (.completed validated (← Task.clock))
  let _ ← apply server (.progress (match firstFailure with
    | none => .validated
    | some component => .failed component))
  Task.modify (·.tick (.validations validated))
  if !validated then Task.modify (·.planRevalidation server round)

end Bootstrap

end Rampart
