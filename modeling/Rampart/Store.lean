import Rampart.Context
import Rampart.Event
import Rampart.Registry
import Rampart.Table

/-!
# The store

Applications, their firewalls and their rules. A rule is compiled before it is saved, so that a
rule that does not compile is refused at once and never deployed. Every change gives the event
that announces it.

* `Store.register` takes in an application with its firewall.
* `Store.saveRule`, `Store.deleteRule`, `Store.updateFirewall` and `Store.recordBouncer` change it.
* `Store.contextOf` puts together what the deployment of a firewall depends on.
-/

namespace Rampart

/-- Changes of a firewall; what is missing stays as it is. -/
structure FirewallUpdate where
  enabled : Option Bool := none
  apiKey : Option String := none
  banDuration : Option UInt64 := none
  appsecEnabled : Option Bool := none
  inbandEnabled : Option Bool := none
deriving DecidableEq, Repr, Inhabited

namespace Firewall

/-- The firewall with a credential: the bouncer of another one is forgotten. -/
def withKey (f : Firewall) (key : String) : Firewall :=
  if key = f.apiKey then f else { f with apiKey := key, bouncerName := none }

/-- A firewall after an update. -/
def update (f : Firewall) (u : FirewallUpdate) : Firewall :=
  let f := match u.apiKey with
    | some key => f.withKey key
    | none => f
  { f with
    enabled := u.enabled.getD f.enabled
    banDuration := u.banDuration.getD f.banDuration
    appsecEnabled := u.appsecEnabled.getD f.appsecEnabled
    inbandEnabled := u.inbandEnabled.getD f.inbandEnabled }

/-! ## What an update leaves -/

theorem withKey_id (f : Firewall) (key : String) : (f.withKey key).id = f.id := by
  unfold withKey
  split <;> rfl

theorem withKey_applicationId (f : Firewall) (key : String) :
    (f.withKey key).applicationId = f.applicationId := by
  unfold withKey
  split <;> rfl

theorem update_id (f : Firewall) (u : FirewallUpdate) : (f.update u).id = f.id := by
  unfold update
  cases u.apiKey with
  | none => rfl
  | some key => exact f.withKey_id key

theorem update_applicationId (f : Firewall) (u : FirewallUpdate) :
    (f.update u).applicationId = f.applicationId := by
  unfold update
  cases u.apiKey with
  | none => rfl
  | some key => exact f.withKey_applicationId key

end Firewall

/-- The applications, firewalls and rules. -/
structure Store where
  applications : Table UInt64 Application := {}
  /-- The number of the application of a uuid. -/
  byUuid : Table String UInt64 := {}
  firewalls : Table UInt64 Firewall := {}
  /-- The number of the firewall of an application. -/
  byApplication : Table UInt64 UInt64 := {}
  rules : Table UInt64 Rule := {}
  /-- The number of the next new rule. -/
  nextRule : UInt64 := 1
deriving DecidableEq, Repr, Inhabited

namespace Store

/-! ## Applications and firewalls -/

/-- Take in an application with its firewall. -/
def register (s : Store) (application : Application) (firewall : Firewall) :
    Except Failure Store := do
  Failure.ofRule (checkUuid application.uuid)
  let firewall := { firewall with applicationId := application.id }
  return { s with
    byUuid := s.byUuid.insert application.uuid application.id
    byApplication := s.byApplication.insert application.id firewall.id
    firewalls := s.firewalls.insert firewall.id firewall
    applications := s.applications.insert application.id application }

/-- The application of a uuid. -/
def application (s : Store) (uuid : String) : Except Failure Application :=
  match (s.byUuid.get? uuid).bind s.applications.get? with
  | some application => .ok application
  | none => .error (.notFound s!"application {uuid}")

/-- The firewall of a number. -/
def firewall (s : Store) (id : UInt64) : Except Failure Firewall :=
  match s.firewalls.get? id with
  | some firewall => .ok firewall
  | none => .error (.notFound s!"firewall config {id}")

/-- The firewall of an application's uuid. -/
def firewallFor (s : Store) (uuid : String) : Except Failure Firewall := do
  let application ← s.application uuid
  match (s.byApplication.get? application.id).bind s.firewalls.get? with
  | some firewall => return firewall
  | none => throw (.notFound s!"firewall config for {uuid}")

/-- The numbers of all firewalls, in order. -/
def firewallIds (s : Store) : List UInt64 :=
  s.firewalls.keys.mergeSort fun a b => a ≤ b

/-- Change the switches of an application's firewall. -/
def updateFirewall (s : Store) (uuid : String) (u : FirewallUpdate) :
    Except Failure (Firewall × RuleEvent × Store) := do
  let id := (← s.firewallFor uuid).id
  let updated := (← s.firewall id).update u
  return (updated, .firewallChanged id, { s with firewalls := s.firewalls.insert id updated })

/-- Note the bouncer that the engine knows, with its credential. -/
def recordBouncer (s : Store) (id : UInt64) (name key : String) :
    Except Failure (Firewall × RuleEvent × Store) := do
  let updated := { ← s.firewall id with apiKey := key, bouncerName := some name }
  return (updated, .firewallChanged id, { s with firewalls := s.firewalls.insert id updated })

/-! ## Rules -/

/-- Give a rule its firewall and its number. A rule that has a number keeps it, unless another
firewall has a rule of that number; new numbers are above all that were given or asked for. -/
def assign (s : Store) (uuid : String) (firewall : Firewall) (rule : Rule) :
    Except Failure Rule × Store :=
  let rule := { rule with firewallId := firewall.id }
  if rule.id = 0 then
    (.ok { rule with id := s.nextRule }, { s with nextRule := s.nextRule + 1 })
  else
    let taken := match s.rules.get? rule.id with
      | some existing => existing.firewallId != firewall.id
      | none => false
    if taken then (.error (.notFound s!"rule {rule.id} in application {uuid}"), s)
    else (.ok rule, { s with nextRule := max s.nextRule (rule.id + 1) })

/-- What came of saving a rule. -/
structure Saved where
  rule : Rule
  event : RuleEvent
deriving DecidableEq, Repr

/-- Save a rule that compiles. The number of a refused rule stays used. -/
def saveRule (s : Store) (settings : Settings.Scenarios) (uuid : String) (rule : Rule) :
    Except Failure Saved × Option Counter × Store :=
  match s.firewallFor uuid with
  | .error e => (.error e, none, s)
  | .ok firewall => match s.assign uuid firewall rule with
    | (.error e, s) => (.error e, none, s)
    | (.ok rule, s) =>
      let compiled := rule.compile settings uuid firewall
      let counter := rule.compileCount uuid compiled
      match compiled with
      | .error e => (.error (.compilation e), counter, s)
      | .ok _ =>
        (.ok ⟨rule, .saved rule.id firewall.id (s.rules.get? rule.id)⟩, counter,
         { s with rules := s.rules.insert rule.id rule })

/-- Delete a rule of an application. -/
def deleteRule (s : Store) (uuid : String) (id : UInt64) :
    Except Failure (Rule × RuleEvent × Store) := do
  let firewall ← s.firewallFor uuid
  match (s.rules.get? id).filter (·.firewallId == firewall.id) with
  | some rule => return (rule, .deleted rule firewall.id, { s with rules := s.rules.erase id })
  | none => throw (.notFound s!"rule {id} in application {uuid}")

/-- The rules of a firewall, by priority and number. -/
def rulesOf (s : Store) (firewall : UInt64) : List Rule :=
  (s.rules.values.filter (·.firewallId == firewall)).mergeSort Rule.isBefore

/-! ## Contexts -/

/-- What the deployment of a firewall depends on. -/
def contextOf (s : Store) (servers : Registry) (id : UInt64) : Except Failure Context := do
  let firewall ← s.firewall id
  match s.applications.get? firewall.applicationId with
  | none => throw (.notFound s!"application {firewall.applicationId}")
  | some application =>
    let server ← servers.get application.serverId
    return .of application firewall (s.rulesOf id) server

/-- What the deployment of an application depends on. -/
def contextFor (s : Store) (servers : Registry) (uuid : String) : Except Failure Context := do
  s.contextOf servers (← s.firewallFor uuid).id

end Store

end Rampart
