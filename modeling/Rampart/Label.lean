import Rampart.Rule
import Rampart.Settings

/-!
# Proxy labels

The labels by which an application's container tells the proxy to put the bouncer in front of it.
One middleware is the bouncer itself; a second one is for inspection.

* `LabelMaker.labels` is empty unless the firewall is active, and has the second middleware only
  when `appsecGate` is open.
* Inspection is all or nothing: every condition of the gate has to hold.
-/

namespace Rampart

/-- Labels in order, and the middlewares that own them. -/
structure LabelSet where
  labels : List (String × String) := []
  middlewares : List String := []
deriving DecidableEq, Repr, Inhabited

namespace LabelSet

/-- Add the settings of a middleware. -/
def addMiddleware (s : LabelSet) (middleware : String) (settings : List (String × String)) :
    LabelSet :=
  let base := s!"traefik.http.middlewares.{middleware}.plugin.bouncer"
  ⟨s.labels ++ settings.map fun (name, value) => (s!"{base}.{name}", value),
   s.middlewares ++ [middleware]⟩

/-- The value of the first label of a key. -/
def get? (s : LabelSet) (key : String) : Option String :=
  s.labels.lookup key

/-- The labels as the container runtime takes them. -/
def lines (s : LabelSet) : List String :=
  s.labels.map fun (key, value) => s!"{key}={value}"

end LabelSet

/-- What the labels of an application depend on. -/
structure LabelContext where
  uuid : String
  firewall : Firewall
  /-- Inspection can be reached on the application's server. -/
  appsecAvailable : Bool
  hasPathOnlyRule : Bool

/-- The settings from which labels are made. -/
structure LabelMaker where
  bouncer : Settings.Bouncer := {}
  engine : Settings.Engine := {}

namespace LabelMaker

/-- The bouncer's middleware. -/
def bouncerMiddleware (m : LabelMaker) (uuid : String) : String :=
  s!"{m.bouncer.middlewareNamespace}-{uuid}"

/-- The middleware of inspection. -/
def appsecMiddleware (m : LabelMaker) (uuid : String) : String :=
  s!"{m.bouncer.appsecNamespace}-{uuid}"

/-- Whether inspection is switched on, can be reached and is asked for. -/
def appsecGate (m : LabelMaker) (c : LabelContext) : Bool :=
  m.bouncer.appsecFeature && c.firewall.appsecEnabled && c.appsecAvailable &&
    (c.firewall.inbandEnabled || c.hasPathOnlyRule)

/-- The settings of every middleware. -/
def coreSettings (m : LabelMaker) (firewall : Firewall) : List (String × String) :=
  [("enabled", "true"), ("crowdseclapikey", firewall.apiKey),
   ("crowdseclapihost", m.engine.lapiHost), ("crowdseclapischeme", m.engine.lapiScheme)]

/-- The settings of the bouncer. -/
def bouncerSettings (m : LabelMaker) (firewall : Firewall) : List (String × String) :=
  m.coreSettings firewall ++
  [("crowdsecmode", m.bouncer.mode),
   ("defaultdecisionseconds", toString firewall.banDuration),
   ("updateintervalseconds", toString m.bouncer.updateInterval),
   ("loglevel", m.bouncer.logLevel),
   ("forwardedheaderstrustedips", ",".intercalate m.bouncer.trustedProxies),
   ("rediscacheenabled", "false"),
   ("localcacheenabled", toString m.bouncer.localCache),
   ("httptimeoutseconds", toString m.bouncer.httpTimeout),
   ("remediationstatuscode", toString m.bouncer.blockedStatus)]

/-- The settings of inspection. -/
def appsecSettings (m : LabelMaker) (firewall : Firewall) : List (String × String) :=
  m.coreSettings firewall ++
  [("crowdsecappsecenabled", "true"), ("crowdsecappsechost", m.engine.appsecHost),
   ("crowdsecappsecfailureblock", "true"), ("crowdsecappsecunreachableblock", "false")]

/-- The labels of an application. -/
def labels (m : LabelMaker) (c : LabelContext) : LabelSet :=
  if !c.firewall.isActive then {}
  else
    let set : LabelSet := {}
    let set := set.addMiddleware (m.bouncerMiddleware c.uuid) (m.bouncerSettings c.firewall)
    if m.appsecGate c then
      set.addMiddleware (m.appsecMiddleware c.uuid) (m.appsecSettings c.firewall)
    else set

end LabelMaker

end Rampart
