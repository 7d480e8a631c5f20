import Rampart.Rule

/-!
# Events

What is announced when rules, firewalls and servers change.
-/

namespace Rampart

/-- A change of the rules or the switches of a firewall. -/
inductive RuleEvent
  /-- A rule was saved; `previous` is the version that it replaced. -/
  | saved (rule firewall : UInt64) (previous : Option Rule)
  /-- A rule was deleted. The event carries it, for nobody else has it any more. -/
  | deleted (rule : Rule) (firewall : UInt64)
  /-- The switches or the credential of a firewall changed. -/
  | firewallChanged (firewall : UInt64)
deriving DecidableEq, Repr, Inhabited

/-- The firewall that an event is about. -/
def RuleEvent.firewall : RuleEvent → UInt64
  | saved _ firewall _ => firewall
  | deleted _ firewall => firewall
  | firewallChanged firewall => firewall

/-- A change in the life of a server. -/
inductive ServerEvent
  | created (server : UInt64)
  /-- The server can be worked on from now on. -/
  | becameReachable (server : UInt64)
deriving DecidableEq, Repr, Inhabited

end Rampart
