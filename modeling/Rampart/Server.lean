import Rampart.Time.Instant

/-!
# Servers

A managed server, the security components installed on it and its status flags.

* `Component.isInstalled` reads the flag of a component, `Component.mark` writes the flags of one
  component and nothing else. The engine's component owns three flags: inspection cannot be
  available without the engine.
* `Status.missing` lists the components whose flag is off, in the order of installation.
-/

namespace Rampart

/-- A security component. -/
inductive Component
  /-- The engine and its local interface. -/
  | engine
  /-- The proxy's access log. -/
  | requestLogging
  /-- Request headers in the access log. -/
  | headerLogging
  /-- The engine's reading of the access log. -/
  | logShipping
  /-- The traffic counters beside the proxy. -/
  | trafficLogger
  /-- The check of all others. -/
  | validator
deriving DecidableEq, Repr, Inhabited

namespace Component

/-- The name of a component. -/
def name : Component → String
  | engine => "crowdsec"
  | requestLogging => "request_logging"
  | headerLogging => "header_logging"
  | logShipping => "log_shipping"
  | trafficLogger => "traffic_logger"
  | validator => "validator"

/-- The components that are installed, in order. -/
def installable : List Component :=
  [engine, requestLogging, headerLogging, logShipping, trafficLogger]

/-- Every component with its name. -/
def named : List (String × Component) :=
  (installable ++ [validator]).map fun component => (component.name, component)

end Component

/-- The result of a component's check. -/
structure Health where
  healthy : Bool
  message : String
deriving DecidableEq, Repr, Inhabited

/-- The security flags of a server. -/
structure Status where
  engineInstalled : Bool := false
  engineAvailable : Bool := false
  /-- Inspection can be reached on the engine. -/
  appsecAvailable : Bool := false
  requestLogging : Bool := false
  headerLogging : Bool := false
  logShipping : Bool := false
  trafficLogger : Bool := false
  validated : Bool := false
  validatedAt : Option Instant := none
  /-- Results of the last checks, in order of the components' names. -/
  details : List (String × Health) := []
deriving DecidableEq, Repr, Inhabited

/-- How far a server's set-up has come; the flags of its status decide. -/
inductive Progress
  | requested
  | installing (component : Component)
  | validating
  | validated
  | failed (component : Component)
deriving DecidableEq, Repr, Inhabited

/-- A managed server. -/
structure Server where
  id : UInt64
  name : String
  host : String
  user : String := "root"
  port : UInt16 := 22
  status : Status := {}
  progress : Progress := .requested
deriving DecidableEq, Repr, Inhabited

namespace Component

/-- Whether a component's own flag is on. -/
def isInstalled (component : Component) (status : Status) : Bool :=
  match component with
  | engine => status.engineInstalled
  | requestLogging => status.requestLogging
  | headerLogging => status.headerLogging
  | logShipping => status.logShipping
  | trafficLogger => status.trafficLogger
  | validator => status.validated

/-- Write the flags of a component. -/
def mark (component : Component) (installed : Bool) (status : Status) : Status :=
  match component with
  | engine =>
    { status with
      engineInstalled := installed
      engineAvailable := installed
      appsecAvailable := installed && status.appsecAvailable }
  | requestLogging => { status with requestLogging := installed }
  | headerLogging => { status with headerLogging := installed }
  | logShipping => { status with logShipping := installed }
  | trafficLogger => { status with trafficLogger := installed }
  | validator => { status with validated := installed }

end Component

namespace Status

/-- The installable components whose flag is off. -/
def missing (status : Status) : List Component :=
  Component.installable.filter fun component => !component.isInstalled status

end Status

end Rampart
