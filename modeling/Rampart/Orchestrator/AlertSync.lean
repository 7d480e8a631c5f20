import Rampart.Engine.Client
import Rampart.Orchestrator.State

/-!
# Pulling alerts

Every server whose engine is there is asked for its alerts. An alert goes to the application that
it names: by its facts, else by its scenario, else by the first of its decisions whose reason names
one. It is kept only if that application is on the server that the alert comes from.

* `Orchestrator.ownerOf?` finds the application of an alert.
* `AlertSync.pull` asks all servers; one that does not answer is passed over.
-/

namespace Rampart

namespace Orchestrator

/-- The uuid that an alert names. -/
def namedBy? (ns : String) (alert : Engine.Alert) : Option String :=
  alert.fact? "app_uuid" <|> Rampart.ownerOf? ns alert.scenario <|>
    alert.decisionList.findSome? fun d => Rampart.ownerOf? ns d.scenario

/-- The application of an alert from a server. -/
def ownerOf? (s : Orchestrator) (server : UInt64) (alert : Engine.Alert) : Option Application :=
  match namedBy? s.settings.scenarios.ns alert with
  | none => none
  | some uuid => match s.store.application uuid with
    | .ok application => if application.serverId = server then some application else none
    | .error _ => none

/-- Keep an alert from a server; tells whether it was kept. -/
def keepAlert (s : Orchestrator) (server : UInt64) (now : Instant) (alert : Engine.Alert) :
    Bool × Orchestrator :=
  match s.ownerOf? server alert with
  | none => (false, s)
  | some application => match Alert.ofEngine? alert application server now with
    | none => (false, s)
    | some alert =>
      let (recorded, feeds) := s.feeds.record alert
      (recorded.isSome, { s with feeds })

/-- Keep alerts from a server; gives how many were kept. -/
def keepAlerts (s : Orchestrator) (server : UInt64) (now : Instant) :
    List Engine.Alert → Nat × Orchestrator
  | [] => (0, s)
  | alert :: alerts =>
    let (kept, s) := s.keepAlert server now alert
    let (others, s) := s.keepAlerts server now alerts
    (others + if kept then 1 else 0, s)

/-- The servers whose engine is there. -/
def engineServers (s : Orchestrator) : List Server :=
  s.registry.list.filter fun server =>
    server.status.engineInstalled && server.status.engineAvailable

end Orchestrator

namespace AlertSync

/-- Pull the alerts of some servers; gives how many were kept. -/
def pullFrom (engine : Engine.Client) (hours : UInt64) :
    List Server → Process Orchestrator Nat
  | [] => return 0
  | server :: servers => do
    let kept ← match ← (engine.alerts server hours).process with
      | .error _ => pure 0
      | .ok alerts => do
        let now ← Process.clock .done
        Process.modifyGet (·.keepAlerts server.id now alerts)
    return kept + (← pullFrom engine hours servers)

/-- Pull the alerts of all servers; gives how many were kept. -/
def pull : Process Orchestrator Nat := do
  let (servers, engine, hours) ← Process.read fun s =>
    (s.engineServers, (⟨s.settings.engine⟩ : Engine.Client), s.settings.alerts.lookbackHours)
  let kept ← pullFrom engine hours servers
  Process.modify (·.count .alertsSynced kept)
  return kept

end AlertSync

end Rampart
