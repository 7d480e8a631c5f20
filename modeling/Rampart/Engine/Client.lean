import Rampart.Decision
import Rampart.Engine.Report
import Rampart.Process
import Rampart.Settings

/-!
# The engine's administration

Tasks that have the engine on a server do something. The engine's own client runs in its
container; every argument is quoted, so that a command is one word per argument.

* `Client.command` is the command of a list of arguments.
* `Client.addDecision`, `Client.decisions`, `Client.removeDecision`: bans.
* `Client.register` gives the engine a bouncer's credential, or gets one.
* `Client.reload` has the engine read its scenarios again, `Client.reloadBouncers` the proxy.
-/

namespace Rampart.Engine

open Text (lines trim trimmed)

/-- The engine of a server, by the settings of where it is. -/
structure Client where
  settings : Settings.Engine := {}

namespace Client

variable {σ : Type}

/-- The words of a command of the engine's client. -/
def words (c : Client) (arguments : List String) : List String :=
  ["docker", "exec", c.settings.container, "cscli"] ++ arguments

/-- A command of the engine's client. -/
def command (c : Client) (arguments : List String) : String :=
  Text.Word.line (c.words arguments)

/-! ## Decisions -/

/-- How the client is told what a decision is about. -/
def scopeFlag : Scope → String
  | .ip => "--ip"
  | .range => "--range"

/-- The command that makes a decision. -/
def addCommand (c : Client) (d : Rampart.Decision) : String :=
  c.command ["decisions", "add", scopeFlag d.scope, d.ip, "--duration", d.literal,
    "--type", d.kind.name, "--reason", d.reason]

/-- Make a decision. -/
def addDecision (c : Client) (server : Server) (d : Rampart.Decision) : Task σ Unit := do
  let _ ← Task.run server [c.addCommand d]

/-- The command that lists the decisions about an address or a network. -/
def listCommand (c : Client) (ip : String) : String :=
  let flag := if ip.toList.contains '/' then "--range" else "--ip"
  c.command ["decisions", "list", flag, ip, "-o", "json"]

/-- A listing, or a failure where the output is none. -/
def parsed {α : Type} (listing : Option α) : Task σ α :=
  .ofExcept (match listing with
    | some a => .ok a
    | none => .error (.serialization "the output is no listing"))

/-- The decisions about an address or a network. -/
def decisions (c : Client) (server : Server) (ip : String) : Task σ (List Decision) := do
  parsed (decisionsIn (← Task.run server [c.listCommand ip]))

/-- The command that lifts a decision. -/
def removeCommand (c : Client) (id : UInt64) : String :=
  c.command ["decisions", "delete", "--id", toString id]

/-- Lift a decision. -/
def removeDecision (c : Client) (server : Server) (id : UInt64) : Task σ Unit := do
  let _ ← Task.run server [c.removeCommand id]

/-! ## Scenarios and alerts -/

/-- The names of all scenarios that the engine has loaded. -/
def scenarios (c : Client) (server : Server) : Task σ (List String) := do
  parsed (scenariosIn (← Task.run server [c.command ["scenarios", "list", "-o", "json"]]))

/-- The alerts of the last hours. -/
def alerts (c : Client) (server : Server) (hours : UInt64) : Task σ (List Alert) := do
  parsed (alertsIn (← Task.run server [c.command
    ["alerts", "list", "--since", s!"{hours}h", "--limit", "100", "-o", "json"]]))

/-- Have the engine read its scenarios again. -/
def reload (c : Client) (server : Server) : Task σ Unit := do
  let _ ← Task.run server ["docker kill --signal=SIGHUP " ++ Text.Word.quote c.settings.container]

/-! ## Bouncers -/

/-- A command whose failure and output do not matter. -/
def silently (command : String) : String :=
  command ++ " >/dev/null 2>&1 || true"

/-- The commands that give a bouncer a credential, its own or one that the engine makes. -/
def registerCommands (c : Client) (name : String) (key : Option String) : List String :=
  let own := match key with
    | some key => ["--key", key]
    | none => []
  [silently (c.command ["bouncers", "delete", name]),
   c.command (["bouncers", "add", name] ++ own ++ ["-o", "raw"])]

/-- The last line of a text that is not blank. -/
def lastLine? (text : String) : Option String :=
  (((lines text.toList).map trim).reverse.find? (!·.isEmpty)).map String.ofList

/-- Register a bouncer, in place of one of the same name; gives its credential. -/
def register (c : Client) (server : Server) (name : String) (key : Option String) :
    Task σ String := do
  let output ← Task.run server (c.registerCommands name key)
  .ofExcept (match lastLine? output with
    | some key => .ok key
    | none => .error (.transport s!"engine returned no key for bouncer {name}"))

/-- The file whose change makes the proxy forget the decisions that it keeps. -/
def markerPath (c : Client) : String :=
  c.settings.proxyDynamicDir ++ "/crowdsec-reload.yaml"

/-- The contents of the marker, at a time. -/
def marker (time : Instant) : String :=
  String.join ["# bouncer cache generation ", time.toOffsetText, "\nhttp: \x7b\x7d\n"]

/-- Make the proxy forget the decisions that it keeps. -/
def reloadBouncers (c : Client) (server : Server) : Task σ Unit := do
  let time ← Task.clock
  Task.upload server c.markerPath (marker time)

end Client

end Rampart.Engine
