import Rampart.Orchestrator.Work
import Rampart.Simulation.Machine

/-!
# The orchestrator on simulated time

The orchestrator with its jobs, its listeners and an observer who reads all events.

* `World.listen` lets the orchestrator listen to the events that it announces itself.
* `World.observe` gives what was announced; events of rules are also kept for `World.deliver`, which
  plans what follows them.
-/

namespace Rampart.Simulation

/-- The listener who deploys rules. -/
def deployer : String := "deployment"

/-- The listener who brings servers up. -/
def bootstrapper : String := "bootstrap"

/-- Who reads all events. -/
def observer : String := "observer"

/-- Whether a subscriber has something to read. -/
def hasNext {ε : Type} (b : Bus ε) (name : String) : Bool :=
  match (b.next name).1 with
  | .event _ | .lagged _ => true
  | _ => false

namespace World

/-- Whether there is something to read for a listener. -/
def hasMail (name : String) (s : Orchestrator) : Bool :=
  if name = deployer then hasNext s.ruleBus name else hasNext s.serverBus name

/-- What follows the next event of a rule; everything is planned when events were lost. -/
def hearRule (s : Orchestrator) : Orchestrator :=
  let (next, ruleBus) := s.ruleBus.next deployer
  let s := { s with ruleBus }
  match next with
  | .event e => (s.handleEvent e).2
  | .lagged _ => s.resync.2
  | _ => s

/-- What follows the next event of a server. -/
def hearServer (s : Orchestrator) : Orchestrator :=
  let (next, serverBus) := s.serverBus.nextEvent bootstrapper
  let s := { s with serverBus }
  match next with
  | .event e => s.handleServerEvent e
  | _ => s

/-- How the orchestrator is run. -/
def host : Host Orchestrator Job where
  works := Orchestrator.works
  hasMail := hasMail
  hear := fun name s => if name = deployer then hearRule s else hearServer s
  tick := Orchestrator.dispatchAlertSync

end World

/-- The orchestrator on a machine, with an observer. -/
structure World where
  machine : Machine Orchestrator
  /-- Events of rules whose consequences have not been planned. -/
  undelivered : List RuleEvent := []

namespace World

/-- A world in which nothing has happened. -/
def ofMachine (m : Machine Orchestrator) : World where
  machine := { m with state := { m.state with
    ruleBus := m.state.ruleBus.subscribe observer
    serverBus := m.state.serverBus.subscribe observer } }

/-- Change the state at once. -/
def change {α : Type} (w : World) (f : Orchestrator → α × Orchestrator) : α × World :=
  let (a, machine) := w.machine.change host f
  (a, { w with machine })

/-- Look at the state. -/
def see {α : Type} (w : World) (f : Orchestrator → α) : α × World :=
  (f w.machine.state, w)

/-- Run a process, in front of all jobs. -/
def perform {α : Type} (w : World) (p : Process Orchestrator α) : Option α × World :=
  let (a, machine) := w.machine.perform host p
  (a, { w with machine })

/-- Let the orchestrator listen to the events that it announces. -/
def listen (w : World) : World :=
  let s := w.machine.state
  let s := { s with
    ruleBus := s.ruleBus.subscribe deployer
    serverBus := s.serverBus.subscribe bootstrapper }
  { w with machine := ({ w.machine with state := s } : Machine Orchestrator).addListener deployer
      |>.addListener bootstrapper }

/-- Pull alerts now, and again and again. -/
def pullAlerts (w : World) : World :=
  { w with machine :=
      w.machine.addTicker w.machine.state.settings.alerts.syncInterval.toNat }

/-- Plan what follows the events that are kept. -/
def deliver (w : World) : List (List DeployAction) × World :=
  let (actions, w') := w.change fun s => w.undelivered.foldl (fun (plans, s) e =>
    let (actions, s) := s.handleEvent e
    (plans ++ [actions], s)) ([], s)
  (actions, { w' with undelivered := [] })

/-- Forget the events that are kept; gives their number. -/
def drop (w : World) : Nat × World :=
  (w.undelivered.length, { w with undelivered := [] })

/-- Read everything there is for the observer of a bus. -/
def readBus {ε : Type} : (fuel : Nat) → Bus ε → List (Received ε) × Bus ε
  | 0, b => ([], b)
  | fuel + 1, b =>
    if hasNext b observer then
      let (next, b) := b.next observer
      let (others, b) := readBus fuel b
      (next :: others, b)
    else ([], b)

/-- An event that was read. -/
def eventIn? {ε : Type} : Received ε → Option ε
  | .event e => some e
  | _ => none

/-- What was announced since the last time. -/
def observe (w : World) : (List (Received RuleEvent) × List (Received ServerEvent)) × World :=
  let s := w.machine.state
  let (rules, ruleBus) := readBus (s.ruleBus.held.length + 1) s.ruleBus
  let (servers, serverBus) := readBus (s.serverBus.held.length + 1) s.serverBus
  ((rules, servers),
   { machine := { w.machine with state := { s with ruleBus, serverBus } }
     undelivered := w.undelivered ++ rules.filterMap eventIn? })

end World

end Rampart.Simulation
