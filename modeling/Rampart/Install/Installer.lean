import Rampart.Engine.Client
import Rampart.Install.Document
import Rampart.Registry

/-!
# Installers

How each component is installed and checked. Installing again does no harm.

* `Installer.install` is the task of a component; it gives the updates of the server's status that
  the component owns beyond its own flag.
* `Installer.check` is a component's check: one call, and what its answer means.
-/

namespace Rampart.Install

open Text (hasText trimLeft trimmed)
open Text.Word (quote)

/-- The settings that installation depends on. -/
structure Installer where
  engine : Settings.Engine := {}
  bouncer : Settings.Bouncer := {}

/-- A check: a call, and what its answer means. -/
structure Check where
  command : List String
  health : Except Failure String → Health

namespace Installer

variable {σ : Type}

/-- The bouncer of the proxy. -/
def proxyBouncer : String := "bastion-proxy"

/-- The client of the engine that is installed. -/
def client (i : Installer) : Engine.Client :=
  ⟨i.engine⟩

/-! ## Commands -/

/-- Try a command until it succeeds. -/
def waitFor (command : String) (tries interval : Nat) : String :=
  s!"i=0; until {command} >/dev/null 2>&1; do i=$((i+1)); " ++
    s!"[ $i -ge {tries} ] && exit 1; sleep {interval}; done"

/-- Start the containers of a directory. -/
def composeUp (dir : String) : String :=
  s!"cd {quote dir} && docker compose up -d"

/-- Start the proxy again, with its new flags. -/
def recreateProxy (i : Installer) : String :=
  composeUp (Remote.parentOf i.engine.proxyComposePath) ++ " --force-recreate"

/-- Restart the engine. -/
def restartEngine (i : Installer) : String :=
  "docker restart " ++ quote i.engine.container

/-- Make the directories of the engine. -/
def makeDirectories (i : Installer) : String :=
  "mkdir -p " ++ Text.Word.line [i.engine.baseDir ++ "/config", i.engine.baseDir ++ "/data",
    i.engine.scenarioDir, i.engine.proxyDynamicDir]

/-- The proxy's access log. -/
def accessLogPath (i : Installer) : String :=
  Remote.parentOf i.engine.proxyComposePath ++ "/access.log"

/-- The engine's configuration of what it reads. -/
def acquisitionPath (i : Installer) : String :=
  i.engine.baseDir ++ "/config/acquis.yaml"

/-- Ask the traffic counters whether they work. -/
def trafficProbe (i : Installer) : String :=
  "curl -fsS " ++ quote i.engine.trafficLoggerHealthUrl

/-! ## Installing -/

/-- Have the engine report its alerts to an address. -/
def reportAlerts (i : Installer) (server : Server) (url : String) : Task σ Unit := do
  Task.upload server (i.engine.baseDir ++ "/config/notifications/bastion.yaml") (alertConfig url)
  let _ ← Task.run server [i.restartEngine]

/-- Whether inspection is there; no if it cannot be found out. -/
def appsecAnswer : Except Failure String → Bool
  | .ok output => hasText output "appsec-default"
  | .error _ => false

/-- Install the engine and the proxy's bouncer. -/
def installEngine (i : Installer) (server : Server) : Task σ (List StatusUpdate) := do
  let _ ← Task.run server [i.makeDirectories]
  Task.upload server (i.engine.baseDir ++ "/docker-compose.yml") (engineCompose i.engine)
  let _ ← Task.run server [Engine.Client.silently "docker network create bastion",
    composeUp i.engine.baseDir, waitFor (i.client.command ["lapi", "status"]) 30 2]
  let key := trimmed (← Task.run server (i.client.registerCommands proxyBouncer none))
  if key.isEmpty then throw (.transport "engine returned an empty bouncer key")
  Task.upload server (i.engine.proxyDynamicDir ++ "/crowdsec.yaml")
    (proxyConfig i.engine i.bouncer key)
  if let some url := i.engine.alertWebhookUrl then
    let _ ← Task.attempt (i.reportAlerts server url)
  let listed ← Task.attempt
    (Task.run server [i.client.command ["appsec-configs", "list", "-o", "raw"]])
  return [.appsec (appsecAnswer listed)]

/-- Switch flags of the proxy on. -/
def installFlags (i : Installer) (server : Server) (flags : List String) :
    Task σ (List StatusUpdate) := do
  let _ ← Task.run server (flags.map (ensureFlag i.engine.proxyComposePath) ++ [i.recreateProxy])
  return []

/-- Have the engine read the access log. -/
def installShipping (i : Installer) (server : Server) : Task σ (List StatusUpdate) := do
  Task.upload server i.acquisitionPath (acquisition i.engine)
  let _ ← Task.run server [i.restartEngine]
  return []

/-- Install the traffic counters. -/
def installTraffic (i : Installer) (server : Server) : Task σ (List StatusUpdate) := do
  let dir := i.engine.trafficLoggerDir
  Task.upload server (dir ++ "/docker-compose.yml") (trafficCompose i.engine)
  let _ ← Task.run server [composeUp dir, waitFor i.trafficProbe 10 2]
  return []

/-- Install a component. Validation is no component to install. -/
def install (i : Installer) (component : Component) (server : Server) :
    Task σ (List StatusUpdate) :=
  match component with
  | .engine => i.installEngine server
  | .requestLogging => i.installFlags server requestFlags
  | .headerLogging => i.installFlags server headerFlags
  | .logShipping => i.installShipping server
  | .trafficLogger => i.installTraffic server
  | .validator => return []

/-! ## Checking -/

/-- The health that an answer tells. -/
def healthOf (what : String) (isGood : String → Bool) : Except Failure String → Health
  | .ok output =>
    if isGood output then ⟨true, s!"{what} ok"⟩
    else ⟨false, s!"{what} check failed: {trimmed output}"⟩
  | .error failure => ⟨false, s!"{what} unreachable: {failure.message}"⟩

/-- Whether the container runtime says that a container runs. -/
def isUp (output : String) : Bool :=
  "Up".toList.isPrefixOf (trimLeft output.toList)

/-- Whether a command said that all is well. -/
def saysOk (output : String) : Bool :=
  trimmed output == "ok"

/-- The status of a container. -/
def statusCommand (container : String) : String :=
  "docker ps --filter " ++ quote ("name=^" ++ container ++ "$") ++
    " --format '\x7b\x7b.Status\x7d\x7d'"

/-- The access log is there; an empty one only means that there was no traffic. -/
def accessLogCommand (i : Installer) : String :=
  let path := quote i.accessLogPath
  s!"test -f {path} && \x7b [ ! -s {path} ] || tail -n 1 {path} | jq -e . >/dev/null; \x7d " ++
    "&& echo ok"

/-- The check of a component. -/
def check (i : Installer) : Component → Check
  | .engine => ⟨[statusCommand i.engine.container], healthOf "crowdsec container" isUp⟩
  | .requestLogging => ⟨[i.accessLogCommand], healthOf "access log" saysOk⟩
  | .headerLogging =>
    ⟨headerFlags.map (hasFlag i.engine.proxyComposePath) ++ ["echo ok"],
     healthOf "header logging flags" saysOk⟩
  | .logShipping =>
    ⟨[s!"grep -qF {quote accessLog} {quote i.acquisitionPath} && echo ok"],
     healthOf "acquisition config" saysOk⟩
  | .trafficLogger =>
    ⟨[i.trafficProbe], healthOf "traffic logger health endpoint" fun _ => true⟩
  | .validator => ⟨[], healthOf "validator" fun _ => true⟩

/-- Check a component on a server. -/
def validate (i : Installer) (component : Component) (server : Server) : Process σ Health :=
  let check := i.check component
  .call server (.run check.command) fun answer => .done (check.health answer)

end Installer

end Rampart.Install
