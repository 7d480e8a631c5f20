import Rampart.Rule.Compiled

/-!
# Scenarios

Every rule that is not enforced by decisions becomes a scenario: a filter behind a guard that only
lets traffic of the owning application through.

* `slug` makes a word of lower-case letters, digits and single hyphens.
* `checkUuid` admits letters, digits, hyphens and underscores: nothing that could end a literal
  or a path.
* `scenarioName` and `scenarioFileName` carry owner and rule; the full stop after the uuid cannot
  occur in one, so the file name identifies its owner.
-/

namespace Rampart

/-- What happens when a scenario overflows. -/
structure Remediation where
  action : Action
  /-- Seconds. -/
  duration : UInt64
deriving DecidableEq, Repr

/-- A scenario for the engine. -/
structure Scenario where
  name : String
  description : String
  filter : String
  /-- In order of the names. -/
  metadata : List (String × String)
  remediation : Remediation
  /-- Unique for application and rule. -/
  fileName : String
deriving DecidableEq, Repr

/-! ## Names -/

/-- A character of a slug. -/
def isSlugChar (c : Char) : Bool :=
  c.isAlphanum

/-- The slug of what follows `started` characters of it; `gap` tells that a hyphen is due before
the next one. -/
def slugFrom (started gap : Bool) : List Char → List Char
  | [] => []
  | c :: cs =>
    if isSlugChar c then
      let rest := c.toLower :: slugFrom true false cs
      if gap && started then '-' :: rest else rest
    else slugFrom started true cs

/-- A word of lower-case letters and digits, with a hyphen for every run of other characters
between them; "rule" if nothing is left. -/
def slug (name : String) : String :=
  let cs := slugFrom false false name.toList
  if cs.isEmpty then "rule" else String.ofList cs

/-- Characters of a uuid. -/
def isUuidChar (c : Char) : Bool :=
  c.isAlphanum || c = '-' || c = '_'

/-- A uuid that can stand in filters and paths. -/
def isUuid (uuid : String) : Bool :=
  let cs := uuid.toList
  !cs.isEmpty && cs.all isUuidChar

/-- Refuse a uuid that cannot stand in filters and paths. -/
def checkUuid (uuid : String) : Except RuleFault Unit :=
  if isUuid uuid then .ok () else .error (.invalidUuid uuid)

/-- The name of a rule's scenario. -/
def scenarioName (ns uuid : String) (rule : Rule) : String :=
  s!"{ns}/{uuid}/{slug rule.name}-{rule.id}"

/-- The name of the file of a rule's scenario. -/
def scenarioFileName (uuid : String) (rule : Rule) : String :=
  s!"{uuid}.{slug rule.name}-{rule.id}.yaml"

/-! ## Filters -/

/-- Traffic of an application, by the name of its router or its host. -/
def guardFor (uuid : String) : Filter :=
  .group (.either
    (.compare "evt.Meta.traefik_router_name" .contains uuid)
    (.compare "evt.Meta.http_host" .contains uuid))

/-- Lines of the proxy's access log. -/
def proxyLines : Filter :=
  .compare "evt.Parsed.program" .equal "traefik"

/-- Two expressions under a joiner. -/
def Joiner.join : Joiner → Filter → Filter → Filter
  | .and => .both
  | .or => .either

/-- One or more expressions under a joiner. -/
def Joiner.joinAll (joiner : Joiner) (first : Filter) (others : List Filter) : Filter :=
  others.foldl joiner.join first

/-- The filter of a rule: proxy lines of the application that meet the conditions. -/
def filterFor (uuid : String) (joiner : Joiner) (first : Filter) (others : List Filter) :
    Filter :=
  .both (.both proxyLines (guardFor uuid)) (.group (joiner.joinAll first others))

/-! ## Compilation -/

/-- The rule's description, or one made of its name. -/
def Rule.describe (rule : Rule) : String :=
  match rule.description with
  | some text => if Text.isBlankText text then s!"Firewall rule: {rule.name}" else text
  | none => s!"Firewall rule: {rule.name}"

/-- The scenario of a rule. -/
def scenarioOf (ns uuid : String) (rule : Rule) (duration : UInt64) :
    Except RuleFault Scenario := do
  checkUuid uuid
  match rule.conditions with
  | [] => throw (.emptyConditions rule.id)
  | first :: others =>
    let first ← CompiledCondition.ofCondition first
    let others ← others.mapM CompiledCondition.ofCondition
    checkNegation rule.id (first :: others) rule.joiner
    return {
      name := scenarioName ns uuid rule
      description := rule.describe
      filter := (filterFor uuid rule.joiner first.expression (others.map (·.expression))).render
      metadata := [("app_uuid", uuid), ("protection_mode", rule.mode.name),
        ("rule_id", toString rule.id), ("rule_name", rule.name)]
      remediation := ⟨rule.action, duration⟩
      fileName := scenarioFileName uuid rule }

/-- The application that a scenario belongs to. -/
def Scenario.uuid? (s : Scenario) : Option String :=
  s.metadata.lookup "app_uuid"

end Rampart
