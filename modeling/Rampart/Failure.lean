import Rampart.Rule

/-!
# Failures of operations

What an operation on the store, the engine or a server can end with.

* Only a transport failure is worth another attempt (`Failure.isRetryable`).
* A configuration failure means that there was nothing to do (`Failure.isConfiguration`).
-/

namespace Rampart

/-- Why an operation failed. -/
inductive Failure
  /-- A feature is off or a credential is missing. -/
  | configuration (text : String)
  /-- A rule does not compile. -/
  | compilation (fault : RuleFault)
  /-- A remote call failed. -/
  | transport (text : String)
  /-- A check failed. -/
  | validation (text : String)
  /-- The attempts of a job are used up. -/
  | permanent (text : String)
  | notFound (text : String)
  /-- A text does not hold the expected value. -/
  | serialization (text : String)
deriving DecidableEq, Repr

namespace Failure

/-- Whether another attempt may succeed. -/
def isRetryable : Failure → Bool
  | transport _ => true
  | _ => false

/-- Whether the job had nothing to do. -/
def isConfiguration : Failure → Bool
  | configuration _ => true
  | _ => false

/-- The message of a failure. -/
def message : Failure → String
  | configuration text => s!"Configuration error: {text}"
  | compilation fault => s!"Compilation error: {fault.message}"
  | transport text => s!"Transport error: {text}"
  | validation text => s!"Validation error: {text}"
  | permanent text => s!"Permanent failure: {text}"
  | notFound text => s!"Not found: {text}"
  | serialization text => s!"Serialization error: {text}"

/-- A result whose fault is a rule's. -/
def ofRule {α : Type} : Except RuleFault α → Except Failure α
  | .ok a => .ok a
  | .error fault => .error (.compilation fault)

end Failure

end Rampart
