import Rampart.Engine.Report
import Rampart.Rule
import Rampart.Settings
import Rampart.Text.Decimal
import Rampart.Text.Search

/-!
# Alerts of applications

An engine alert that is attributed to an application, and the feeds that keep the recent ones.

* `AlertType.ofScenario` goes by words in the scenario's name, `Severity.ofDecisions` by the first
  ban or captcha.
* `ownerOf?` finds the application in a scenario's name or a ban's reason.
* `AlertFeeds.record` refuses an alert that a feed has already, by the engine's number or by
  address, scenario and time; a feed drops its oldest alert when it is full.
-/

namespace Rampart

/-- What an alert is about. -/
inductive AlertType
  | sqlInjection
  | xssAttack
  | portScan
  | bruteForce
  | pathTraversal
  | remoteCodeExecution
  | suspiciousBot
  | rateLimitExceeded
  | suspiciousActivity
deriving DecidableEq, Repr, Inhabited

namespace AlertType

/-- The name of a type. -/
def name : AlertType → String
  | sqlInjection => "sql_injection"
  | xssAttack => "xss_attack"
  | portScan => "port_scan"
  | bruteForce => "brute_force"
  | pathTraversal => "path_traversal"
  | remoteCodeExecution => "remote_code_execution"
  | suspiciousBot => "suspicious_bot"
  | rateLimitExceeded => "rate_limit_exceeded"
  | suspiciousActivity => "suspicious_activity"

/-- Every type with its name. -/
def named : List (String × AlertType) :=
  [sqlInjection, xssAttack, portScan, bruteForce, pathTraversal, remoteCodeExecution,
   suspiciousBot, rateLimitExceeded, suspiciousActivity].map fun kind => (kind.name, kind)

/-- Words of scenario names and what they tell; the first match wins. -/
def keywords : List (List String × AlertType) :=
  [(["sql-injection", "sqli"], sqlInjection), (["xss", "cross-site"], xssAttack),
   (["scan", "recon"], portScan), (["brute", "password"], bruteForce),
   (["path-traversal", "directory"], pathTraversal), (["rce", "remote-code"], remoteCodeExecution),
   (["bot", "crawler"], suspiciousBot), (["rate", "flood"], rateLimitExceeded)]

/-- The type of the alerts of a scenario. -/
def ofScenario (scenario : String) : AlertType :=
  let text := String.ofList (scenario.toList.map Char.toLower)
  match keywords.find? fun (words, _) => words.any (Text.hasText text) with
  | some (_, kind) => kind
  | none => suspiciousActivity

end AlertType

/-- How bad an alert is. -/
inductive Severity
  | low
  | medium
  | high
  | critical
deriving DecidableEq, Repr, Inhabited

namespace Severity

/-- The name of a severity. -/
def name : Severity → String
  | low => "low"
  | medium => "medium"
  | high => "high"
  | critical => "critical"

/-- Every severity with its name. -/
def named : List (String × Severity) :=
  [low, medium, high, critical].map fun severity => (severity.name, severity)

/-- The whole hours of a duration, such as `167h59m58s`. -/
def hoursIn (duration : String) : UInt64 :=
  match Text.cut? ['h'] duration.toList with
  | some (hours, _) => (Text.Decimal.word? (Text.trim hours)).getD 0
  | none => 0

/-- By the first ban or captcha: a ban of a day or more is critical, any other high, a captcha
medium. Nothing of the kind is low. -/
def ofDecisions : List Engine.Decision → Severity
  | [] => low
  | d :: ds =>
    if d.kind = "ban" then (if hoursIn d.duration ≥ 24 then critical else high)
    else if d.kind = "captcha" then medium
    else ofDecisions ds

end Severity

/-- An alert of an application. -/
structure Alert where
  /-- Given when the alert is recorded. -/
  id : UInt64
  applicationId : UInt64
  uuid : String
  serverId : UInt64
  engineAlertId : UInt64
  kind : AlertType
  severity : Severity
  ip : String
  scenario : String
  message : String
  decisions : UInt64
  observedAt : Instant
deriving DecidableEq, Repr, Inhabited

namespace Alert

/-- What an alert tells a reader. -/
def describe (ip scenario : String) (decisions : Nat) : String :=
  s!"Suspicious activity detected from IP {ip}" ++
    (if scenario = "unknown" then "" else s!" ({scenario})") ++
    if decisions = 0 then "" else s!". {decisions} decision(s) applied."

/-- The alert of an application, if the engine names an address. -/
def ofEngine? (alert : Engine.Alert) (application : Application) (serverId : UInt64)
    (now : Instant) : Option Alert :=
  match alert.sourceIp? with
  | none => none
  | some ip =>
    let scenario := if alert.scenario.isEmpty then "unknown" else alert.scenario
    let decisions := alert.decisionList
    some {
      id := 0
      applicationId := application.id
      uuid := application.uuid
      serverId
      engineAlertId := alert.id
      kind := .ofScenario scenario
      severity := .ofDecisions decisions
      ip
      scenario
      message := describe ip scenario decisions.length
      decisions := UInt64.ofNat decisions.length
      observedAt := alert.createdAt.getD now }

end Alert

/-- The application named by a scenario or a reason under a namespace. -/
def ownerOf? (ns scenario : String) : Option String :=
  match Text.startsWith? (ns.toList ++ ['/']) scenario.toList with
  | some rest => match Text.cut? ['/'] rest with
    | some (uuid, _) => if uuid.isEmpty then none else some (String.ofList uuid)
    | none => none
  | none => none

/-! ## Feeds -/

/-- The recent alerts of each application, oldest first. -/
structure AlertFeeds where
  feeds : List (String × List Alert) := []
  /-- The last number given. -/
  lastId : UInt64 := 0
  /-- Seconds within which one address and scenario make one alert. -/
  window : Int
  /-- The length of a feed. -/
  capacity : Nat
deriving DecidableEq, Repr

namespace AlertFeeds

/-- Seconds as a signed word of 64 bits. -/
def signedSeconds (seconds : UInt64) : Int :=
  (Int64.ofNat seconds.toNat).toInt

/-- Feeds with nothing in them. -/
def ofSettings (s : Settings.Alerts) : AlertFeeds where
  window := signedSeconds s.dedupeWindow
  capacity := max s.maxPerApplication.toNat 1

/-- The feed of an application, oldest first. -/
def feed (f : AlertFeeds) (uuid : String) : List Alert :=
  (f.feeds.lookup uuid).getD []

/-- Whether two alerts have one number of one engine. -/
def sameEngineAlert (a b : Alert) : Bool :=
  b.engineAlertId != 0 && a.serverId = b.serverId && a.engineAlertId = b.engineAlertId

/-- Whether two alerts are about one address and scenario within a number of seconds. -/
def repeats (window : Int) (a b : Alert) : Bool :=
  a.ip = b.ip && a.scenario = b.scenario &&
    a.observedAt.distance b.observedAt < window * 1000000000

/-- Whether a feed refuses an alert. -/
def refuses (f : AlertFeeds) (alert : Alert) : Bool :=
  (f.feed alert.uuid).any fun a => sameEngineAlert a alert || repeats f.window a alert

/-- Record an alert unless its feed refuses it; gives the alert as recorded. -/
def record (f : AlertFeeds) (alert : Alert) : Option Alert × AlertFeeds :=
  if f.refuses alert then (none, f)
  else
    let recorded := { alert with id := f.lastId + 1 }
    let entries := f.feed alert.uuid ++ [recorded]
    let entries := entries.drop (entries.length - f.capacity)
    (some recorded,
     { f with
       feeds := (alert.uuid, entries) :: f.feeds.filter (·.1 != alert.uuid)
       lastId := f.lastId + 1 })

/-- The alerts of an application, newest first. -/
def newestFirst (f : AlertFeeds) (uuid : String) : List Alert :=
  (f.feed uuid).reverse

end AlertFeeds

end Rampart
