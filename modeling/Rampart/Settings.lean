import Rampart.Job.Retry
import Rampart.Net.Network
import Rampart.Text.Blank

/-!
# Settings

What an operator can set, in sections. Every value has a default, so that nothing has to be set.

* `Settings.fault?` gives the first objection to a combination of settings.
* `Deployment.retry` and `Bootstrap.engineRetry` are the retry policies that the settings describe.
-/

namespace Rampart.Settings

/-- Where the program listens and keeps its state. -/
structure Listen where
  address : String := "0.0.0.0:3030"
  metricsAddress : String := "0.0.0.0:9091"
  /-- The snapshot of the servers. -/
  stateFile : Option String := none
  snapshotInterval : UInt64 := 30
deriving DecidableEq, Repr, Inhabited

/-- The message broker whose events are bridged. -/
structure Broker where
  enabled : Bool := false
  url : String := "nats://127.0.0.1:4222"
  ruleSubject : String := "bastion.events.rules"
  serverSubject : String := "bastion.events.servers"
deriving DecidableEq, Repr, Inhabited

/-- Where engine and proxy live on a server. -/
structure Engine where
  image : String := "crowdsecurity/crowdsec:latest"
  container : String := "crowdsec"
  lapiHost : String := "crowdsec:8080"
  lapiScheme : String := "http"
  appsecHost : String := "crowdsec:7422"
  /-- The directory of the engine's configuration. -/
  baseDir : String := "/data/bastion/crowdsec"
  /-- The directory of the engine's scenarios. -/
  scenarioDir : String := "/data/bastion/crowdsec/config/scenarios"
  proxyContainer : String := "bastion-proxy"
  proxyComposePath : String := "/data/bastion/proxy/docker-compose.yml"
  proxyDynamicDir : String := "/data/bastion/proxy/dynamic"
  trafficLoggerImage : String := "ghcr.io/bastion-sh/traffic-logger:latest"
  trafficLoggerDir : String := "/opt/traffic-logger"
  trafficLoggerHealthUrl : String := "http://localhost:3001/health"
  /-- Where the engine reports its alerts. -/
  alertWebhookUrl : Option String := none
deriving DecidableEq, Repr, Inhabited

/-- What the labels of the proxy's bouncer say. -/
structure Bouncer where
  middlewareNamespace : String := "crowdsec"
  appsecNamespace : String := "appsec"
  mode : String := "live"
  updateInterval : UInt64 := 10
  logLevel : String := "INFO"
  trustedProxies : List String := ["10.0.0.0/8", "172.16.0.0/12", "192.168.0.0/16"]
  localCache : Bool := true
  /-- Inspection is offered at all. -/
  appsecFeature : Bool := true
  httpTimeout : UInt64 := 10
  blockedStatus : UInt16 := 403
deriving DecidableEq, Repr, Inhabited

/-- How scenarios are named and how fast their buckets leak. -/
structure Scenarios where
  ns : String := "bastion"
  capacity : UInt32 := 1
  leakSpeed : String := "10s"
deriving DecidableEq, Repr, Inhabited

/-- How rules are deployed. -/
structure Deployment where
  decisionDelay : UInt64 := 2
  bouncerReloadDelay : UInt64 := 2
  /-- Where a redeploy of an application is asked for. -/
  redeployUrl : Option String := none
  syncTries : UInt32 := 3
  syncBackoff : List UInt64 := [10, 30, 60]
deriving DecidableEq, Repr, Inhabited

/-- When the components of a new server are installed, in seconds from its creation. -/
structure Bootstrap where
  engineOffset : UInt64 := 120
  engineTries : UInt32 := 3
  engineBackoff : List UInt64 := [60, 300, 900]
  /-- Counted from the first attempt. -/
  engineWindow : UInt64 := 3600
  requestLoggingOffset : UInt64 := 150
  headerLoggingOffset : UInt64 := 165
  logShippingOffset : UInt64 := 180
  trafficLoggerOffset : UInt64 := 240
  validationOffset : UInt64 := 480
  revalidateAfter : UInt64 := 600
  maxRevalidations : UInt32 := 3
deriving DecidableEq, Repr, Inhabited

/-- How many jobs run side by side. -/
structure Scheduling where
  workers : UInt64 := 4
deriving DecidableEq, Repr, Inhabited

/-- Who is told. -/
structure Hooks where
  /-- Told when an installation fails for good. -/
  failureUrl : Option String := none
deriving DecidableEq, Repr, Inhabited

/-- How alerts are pulled and kept. -/
structure Alerts where
  enabled : Bool := true
  syncInterval : UInt64 := 300
  /-- How far back each pull looks. -/
  lookbackHours : UInt64 := 24
  /-- Within this time, one address and scenario make one alert. -/
  dedupeWindow : UInt64 := 3600
  maxPerApplication : UInt64 := 500
deriving DecidableEq, Repr, Inhabited

/-- How servers are reached. -/
structure Ssh where
  identityFile : Option String := none
  connectTimeout : UInt64 := 10
  commandTimeout : UInt64 := 300
  strictHostKeys : Bool := false
deriving DecidableEq, Repr, Inhabited

/-- What is logged, and how. -/
structure Logging where
  level : String := "info"
  format : String := "text"
deriving DecidableEq, Repr, Inhabited

namespace Deployment

/-- The retry policy of the jobs that deploy rules. -/
def retry (d : Deployment) : RetryPolicy :=
  .ofSeconds d.syncTries d.syncBackoff none

end Deployment

namespace Bootstrap

/-- The retry policy of the engine's installation. -/
def engineRetry (b : Bootstrap) : RetryPolicy :=
  .ofSeconds b.engineTries b.engineBackoff (some b.engineWindow)

/-- The offsets, in the order of installation. -/
def offsets (b : Bootstrap) : List UInt64 :=
  [b.engineOffset, b.requestLoggingOffset, b.headerLoggingOffset, b.logShippingOffset,
   b.trafficLoggerOffset, b.validationOffset]

end Bootstrap

end Rampart.Settings

namespace Rampart

/-- All settings. -/
structure Settings where
  listen : Settings.Listen := {}
  broker : Settings.Broker := {}
  engine : Settings.Engine := {}
  bouncer : Settings.Bouncer := {}
  scenarios : Settings.Scenarios := {}
  deployment : Settings.Deployment := {}
  bootstrap : Settings.Bootstrap := {}
  scheduling : Settings.Scheduling := {}
  hooks : Settings.Hooks := {}
  alerts : Settings.Alerts := {}
  ssh : Settings.Ssh := {}
  logging : Settings.Logging := {}
deriving DecidableEq, Repr, Inhabited

namespace Settings

/-- Whether every number is below the one after it. -/
def isIncreasing : List UInt64 → Bool
  | a :: b :: rest => a < b && isIncreasing (b :: rest)
  | _ => true

/-- Numbers in brackets. -/
def bracketed (numbers : List UInt64) : String :=
  "[" ++ ", ".intercalate (numbers.map toString) ++ "]"

/-- The first objection to the settings. -/
def fault? (s : Settings) : Option String :=
  if s.scheduling.workers = 0 then some "Scheduler needs at least one worker"
  else if Text.isBlankText s.scenarios.ns then some "Scenario namespace cannot be empty"
  else if s.bootstrap.engineTries = 0 then some "CrowdSec install needs at least one try"
  else if s.bootstrap.engineTries > 1 && s.bootstrap.engineBackoff.isEmpty then
    some "CrowdSec backoff schedule cannot be empty when retries are enabled"
  else if s.deployment.syncTries > 1 && s.deployment.syncBackoff.isEmpty then
    some "Sync backoff schedule cannot be empty when retries are enabled"
  else if !isIncreasing s.bootstrap.offsets then
    some s!"Bootstrap offsets must be strictly increasing, got {bracketed s.bootstrap.offsets}"
  else if s.alerts.enabled && s.alerts.syncInterval = 0 then
    some "Alert sync interval must be positive"
  else match s.bouncer.trustedProxies.find? fun range => (Network.parse? range).isNone with
    | some range => some s!"Invalid trusted proxy range '{range}': invalid IP address syntax"
    | none => none

end Settings

end Rampart
