import Rampart.Filter
import Rampart.Pattern.Parser
import Rampart.Rule

/-!
# Compiled conditions

A condition becomes an expression of the engine's filter language. The request attributes and
operators that a condition can name stand in total tables: a name outside them is a fault.

* `Field.ofName` and `Field.accessor`: what a condition looks at.
* `Operator.ofName` and `Operator.comparator`: how it looks. `Operator.isNegated` tells the
  operators that match everything but their value.
* `CompiledCondition.ofCondition` looks up field and operator without the blanks around them; the
  value is taken as it is, and has to be more than blanks.
* `checkNegation` refuses rules whose negated conditions nothing narrows: they would match nearly
  all traffic.
-/

namespace Rampart

/-! ## The vocabulary of conditions -/

/-- A request attribute. -/
inductive Field
  | sourceIp
  | requestPath
  | uriFull
  | method
  | userAgent
  | host
  | referer
  | protocol
  | countryCode
deriving DecidableEq, Repr

namespace Field

/-- The names of the fields. -/
def named : List (String × Field) :=
  [("ip_address", sourceIp), ("ip", sourceIp), ("source_ip", sourceIp),
   ("request_path", requestPath), ("uri_full", uriFull), ("method", method),
   ("user_agent", userAgent), ("host", host), ("referer", referer), ("protocol", protocol),
   ("country_code", countryCode)]

/-- The field of a name. -/
def ofName (name : String) : Except RuleFault Field :=
  match named.lookup name with
  | some field => .ok field
  | none => .error (.unknownField name)

/-- Where an event holds the field. -/
def accessor : Field → String
  | sourceIp => "evt.Meta.source_ip"
  | requestPath => "evt.Parsed.request"
  | uriFull => "evt.Parsed.uri"
  | method => "evt.Parsed.verb"
  | userAgent => "evt.Parsed.http_user_agent"
  | host => "evt.Meta.target_fqdn"
  | referer => "evt.Parsed.http_referer"
  | protocol => "evt.Parsed.http_version"
  | countryCode => "evt.Enriched.IsoCode"

end Field

/-- How a field is compared with a value. -/
inductive Operator
  | equals
  | notEquals
  | contains
  | notContains
  | startsWith
  | endsWith
  | regex
deriving DecidableEq, Repr

namespace Operator

/-- The names of the operators. -/
def named : List (String × Operator) :=
  [("equals", equals), ("not_equals", notEquals), ("contains", contains),
   ("not_contains", notContains), ("starts_with", startsWith), ("ends_with", endsWith),
   ("regex", regex)]

/-- The operator of a name. -/
def ofName (name : String) : Except RuleFault Operator :=
  match named.lookup name with
  | some operator => .ok operator
  | none => .error (.unknownOperator name)

/-- Whether the operator matches everything but its value. -/
def isNegated : Operator → Bool
  | notEquals | notContains => true
  | _ => false

/-- The comparator of a filter that the operator uses. -/
def comparator : Operator → Comparator
  | equals => .equal
  | notEquals => .notEqual
  | contains | notContains => .contains
  | startsWith => .startsWith
  | endsWith => .endsWith
  | regex => .matching

end Operator

/-! ## Conditions -/

/-- A condition whose field and operator are known. -/
structure CompiledCondition where
  field : Field
  operator : Operator
  expression : Filter
deriving DecidableEq, Repr

namespace CompiledCondition

/-- The expression that compares a field with a value. -/
def expressionOf (field : Field) (operator : Operator) (value : String) : Filter :=
  let comparison := Filter.compare field.accessor operator.comparator value
  match operator with
  | .notContains => .negate (.group comparison)
  | _ => comparison

/-- Compile a condition. -/
def ofCondition (c : Condition) : Except RuleFault CompiledCondition := do
  let field ← Field.ofName (Text.trimmed c.field)
  let operator ← Operator.ofName (Text.trimmed c.operator)
  if Text.isBlankText c.value then throw (.emptyValue c.field)
  if operator = .regex && !Pattern.isValid c.value then throw (.invalidPattern c.value)
  return ⟨field, operator, expressionOf field operator c.value⟩

end CompiledCondition

/-- Negated conditions need a condition beside them that is not negated, and `and` between
them. -/
def checkNegation (rule : UInt64) (compiled : List CompiledCondition) (joiner : Joiner) :
    Except RuleFault Unit :=
  let negated := compiled.countP (·.operator.isNegated)
  if negated = 0 then .ok ()
  else if joiner = .or || negated = compiled.length then .error (.soleNegation rule)
  else .ok ()

end Rampart
