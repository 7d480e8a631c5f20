import Rampart.Text.Blank

/-!
# Firewall rules

A rule belongs to the firewall of one application. Its conditions are kept as the user wrote
them; whether they name a known field and operator is found out when the rule is compiled.

* `Rule`, `Condition`: what the user writes.
* `Firewall`: the switches and the engine credential of one application's firewall.
* `Application`: the owner of a firewall, deployed on one server.
* `RuleFault`: the reasons for which a rule is not compiled, each with its message.
-/

namespace Rampart

/-- How a rule is enforced. -/
inductive Mode
  /-- By direct ban decisions, without a scenario. -/
  | ipBan
  /-- By inspection in the request path. -/
  | inband
  /-- By detection in the logs. -/
  | outofband
  /-- By detection in the logs and inspection. -/
  | hybrid
  /-- By inspection of matching paths only. -/
  | pathOnly
deriving DecidableEq, Repr, Inhabited

/-- What happens to a client that a rule matches. -/
inductive Action
  | ban
  | captcha
deriving DecidableEq, Repr, Inhabited

/-- How the conditions of a rule are joined. -/
inductive Joiner
  | and
  | or
deriving DecidableEq, Repr, Inhabited

/-- One condition, in the user's words. -/
structure Condition where
  field : String
  operator : String
  value : String
deriving DecidableEq, Repr, Inhabited

/-- A firewall rule. -/
structure Rule where
  /-- Unique in a store; zero until the rule is saved. -/
  id : UInt64 := 0
  /-- The owning firewall, assigned on saving. -/
  firewallId : UInt64 := 0
  name : String
  description : Option String := none
  mode : Mode
  action : Action
  enabled : Bool := true
  joiner : Joiner := .and
  conditions : List Condition
  /-- Lower comes first. -/
  priority : Int32 := 0
  /-- The rule's own duration in seconds. -/
  duration : Option UInt64 := none
deriving DecidableEq, Repr, Inhabited

/-- The firewall of one application. -/
structure Firewall where
  id : UInt64
  /-- Taken from the owner on registration. -/
  applicationId : UInt64 := 0
  enabled : Bool
  /-- The credential that the application's bouncer shows to the engine. -/
  apiKey : String := ""
  /-- Seconds, for rules without a duration of their own. -/
  banDuration : UInt64 := 14400
  appsecEnabled : Bool := false
  inbandEnabled : Bool := false
  /-- The bouncer registered with `apiKey`; forgotten when the key changes. -/
  bouncerName : Option String := none
deriving DecidableEq, Repr, Inhabited

/-- An application with a firewall. -/
structure Application where
  id : UInt64
  uuid : String
  name : String
  serverId : UInt64
deriving DecidableEq, Repr, Inhabited

namespace Mode

/-- The name of a mode. -/
def name : Mode → String
  | ipBan => "ip_ban"
  | inband => "inband"
  | outofband => "outofband"
  | hybrid => "hybrid"
  | pathOnly => "path_only"

/-- Every mode with its name. -/
def named : List (String × Mode) :=
  [ipBan, inband, outofband, hybrid, pathOnly].map fun mode => (mode.name, mode)

end Mode

namespace Action

/-- The name of an action. -/
def name : Action → String
  | ban => "ban"
  | captcha => "captcha"

/-- Every action with its name. -/
def named : List (String × Action) :=
  [ban, captcha].map fun action => (action.name, action)

end Action

namespace Joiner

/-- The name of a joiner. -/
def name : Joiner → String
  | and => "AND"
  | or => "OR"

/-- Every joiner with its name. -/
def named : List (String × Joiner) :=
  [and, or].map fun joiner => (joiner.name, joiner)

/-- A joiner between two expressions of a filter. -/
def text : Joiner → String
  | and => " && "
  | or => " || "

end Joiner

namespace Rule

/-- The rule's own duration, or else its firewall's. -/
def durationIn (rule : Rule) (firewall : Firewall) : UInt64 :=
  rule.duration.getD firewall.banDuration

/-- Whether the rule is enforced by decisions. -/
def isBan (rule : Rule) : Bool :=
  rule.mode == .ipBan

end Rule

namespace Firewall

/-- Switched on, with a credential to use. -/
def isActive (firewall : Firewall) : Bool :=
  firewall.enabled && !Text.isBlankText firewall.apiKey

/-- Switched on, while the engine does not know its bouncer. -/
def needsBouncer (firewall : Firewall) : Bool :=
  firewall.enabled && firewall.bouncerName.isNone

end Firewall

/-! ## What is wrong with a rule -/

/-- Why a rule is not compiled. -/
inductive RuleFault
  | emptyConditions (rule : UInt64)
  | unknownField (name : String)
  | unknownOperator (name : String)
  | emptyValue (field : String)
  | invalidPattern (pattern : String)
  /-- Nothing narrows the match of a rule's negated conditions. -/
  | soleNegation (rule : UInt64)
  | invalidUuid (uuid : String)
  | invalidTarget (target : String)
  | unsupportedBan (field operator : String)
  | conflictingTargets (rule : UInt64)
deriving DecidableEq, Repr

namespace RuleFault

/-- The message of a fault. -/
def message : RuleFault → String
  | emptyConditions rule => s!"rule {rule} has no conditions"
  | unknownField name => s!"unknown field '{name}'"
  | unknownOperator name => s!"unknown operator '{name}'"
  | emptyValue field => s!"empty value for field '{field}'"
  | invalidPattern pattern => s!"invalid pattern '{pattern}'"
  | soleNegation rule =>
    s!"rule {rule}: negated conditions need at least one positive condition joined with AND"
  | invalidUuid uuid => s!"invalid application uuid '{uuid}'"
  | invalidTarget target => s!"invalid ban target '{target}'"
  | unsupportedBan field operator =>
    s!"ip_ban rules only accept ip_address equals conditions, got {field} {operator}"
  | conflictingTargets rule =>
    s!"rule {rule}: an address cannot equal several ban targets at once, " ++
      "use OR or one comma separated list"

end RuleFault

end Rampart
