import Rampart.Net.Network
import Rampart.Rule
import Rampart.Rule.Compiled
import Rampart.Text.Blank

/-!
# Ban decisions

A rule that bans addresses becomes one decision per distinct address or network that it names.

* `Decision.target?` reads an address, or a network with its host bits cleared; a network of one
  address is that address.
* `decisionsOf` accepts only conditions that compare the source address for equality. A negated
  target would block all others, and several conditions joined by `and` could never hold together.
-/

namespace Rampart

/-- What a decision is about. -/
inductive Scope
  | ip
  | range
deriving DecidableEq, Repr

/-- A decision for the engine. -/
structure Decision where
  /-- An address or a network. -/
  ip : String
  scope : Scope
  kind : Action
  /-- Seconds. -/
  duration : UInt64
  /-- The same for all decisions of a rule. -/
  reason : String
deriving DecidableEq, Repr

namespace Scope

/-- The name of a scope. -/
def name : Scope → String
  | ip => "ip"
  | range => "range"

/-- Every scope with its name. -/
def named : List (String × Scope) :=
  [ip, range].map fun scope => (scope.name, scope)

/-- The engine's name of a scope. -/
def engineName : Scope → String
  | ip => "Ip"
  | range => "Range"

end Scope

namespace Decision

/-- The duration in the engine's form. -/
def literal (d : Decision) : String :=
  s!"{d.duration}s"

/-- What tells submissions of one decision from others. -/
def key (d : Decision) : String × String :=
  (d.ip, d.reason)

/-- The address or network written by a text. -/
def target? (text : String) : Option (String × Scope) :=
  match Address.parse? text with
  | some address => some (address.toText, .ip)
  | none => match Network.parse? text with
    | some network =>
      if network.isSingle then some (network.address.toText, .ip)
      else some (network.trunc.toText, .range)
    | none => none

end Decision

/-- The reason of all decisions of a rule. -/
def banReason (ns uuid : String) (rule : UInt64) : String :=
  s!"{ns}/{uuid}/rule-{rule}"

/-- Commas and blanks separate targets. -/
def isTargetSeparator (c : Char) : Bool :=
  c = ',' || Text.isBlank c

/-- The targets that a value names. -/
def targetsIn (value : String) : List String :=
  (Text.fieldsBy isTargetSeparator value.toList).map String.ofList

/-- Whether a condition compares the source address for equality. -/
def Condition.isBan (c : Condition) : Bool :=
  match Field.ofName (Text.trimmed c.field), Operator.ofName (Text.trimmed c.operator) with
  | .ok .sourceIp, .ok .equals => true
  | _, _ => false

/-- Add a decision unless it is there. -/
def addDecision (decisions : List Decision) (d : Decision) : List Decision :=
  if decisions.contains d then decisions else decisions ++ [d]

/-- The decisions of a rule, given how to make one of a target. -/
def collectDecisions (make : String → Scope → Decision) (conditions : List Condition) :
    Except RuleFault (List Decision) :=
  conditions.foldlM (fun decisions c => do
    if !c.isBan then throw (.unsupportedBan c.field c.operator)
    let targets := targetsIn c.value
    if targets.isEmpty then throw (.emptyValue c.field)
    targets.foldlM (fun decisions text =>
      match Decision.target? text with
      | some (ip, scope) => .ok (addDecision decisions (make ip scope))
      | none => .error (.invalidTarget text)) decisions) []

/-- The decisions of a rule. -/
def decisionsOf (ns uuid : String) (rule : Rule) (duration : UInt64) :
    Except RuleFault (List Decision) :=
  if rule.conditions.isEmpty then .error (.emptyConditions rule.id)
  else if rule.joiner = .and && rule.conditions.length > 1 then
    .error (.conflictingTargets rule.id)
  else
    let reason := banReason ns uuid rule.id
    collectDecisions (⟨·, ·, rule.action, duration, reason⟩) rule.conditions

end Rampart
