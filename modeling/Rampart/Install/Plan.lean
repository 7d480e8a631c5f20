import Rampart.Job.Scheduler
import Rampart.Server
import Rampart.Settings
import Rampart.Table

/-!
# The plan of installation, and the claims on its work

When each component of a new server is installed, how often that is tried, and when everything is
checked. A component is installed on a server by one job at a time. Every job that is given the work
gets a ticket of its own: only the newest ticket may begin, and while an installation runs no
further ticket is given.

* `InstallPlan.ofSettings` has one step per component, in the order of installation, and the check
  as the last.
* `Claims.claim` gives a ticket, unless an installation of the pair runs.
* `Claims.start`, `Claims.pause` and `Claims.release` mark what a job with a ticket does.
-/

namespace Rampart

/-! ## Plans -/

/-- A step of the plan. -/
structure InstallStep where
  component : Component
  /-- Seconds from the creation of the server. -/
  offset : UInt64
  queue : Queue := .security
  retry : RetryPolicy := .single
deriving DecidableEq, Repr

/-- The steps of installation. -/
structure InstallPlan where
  steps : List InstallStep
deriving DecidableEq, Repr

namespace InstallPlan

/-- The plan that settings describe. -/
def ofSettings (b : Settings.Bootstrap) : InstallPlan where
  steps := [
    { component := .engine, offset := b.engineOffset, retry := b.engineRetry },
    { component := .requestLogging, offset := b.requestLoggingOffset },
    { component := .headerLogging, offset := b.headerLoggingOffset },
    { component := .logShipping, offset := b.logShippingOffset },
    { component := .trafficLogger, offset := b.trafficLoggerOffset },
    { component := .validator, offset := b.validationOffset }]

/-- The step of a component. -/
def step? (p : InstallPlan) (component : Component) : Option InstallStep :=
  p.steps.find? (·.component == component)

end InstallPlan

/-! ## Claims -/

/-- The newest ticket of a component on a server. -/
structure Claim where
  ticket : UInt64
  /-- The job with the ticket is installing. -/
  running : Bool := false
deriving DecidableEq, Repr, Inhabited

/-- The claims on all installations. -/
structure Claims where
  claims : Table (UInt64 × Component) Claim := {}
  /-- The last ticket given. -/
  lastTicket : UInt64 := 0
deriving DecidableEq, Repr, Inhabited

namespace Claims

/-- The claim on a component of a server. -/
def get? (c : Claims) (server : UInt64) (component : Component) : Option Claim :=
  c.claims.get? (server, component)

/-- Set the claim on a component of a server. -/
def set (c : Claims) (server : UInt64) (component : Component) (claim : Claim) : Claims :=
  { c with claims := c.claims.insert (server, component) claim }

/-- Give a ticket that takes the place of all before, unless an installation runs. A number is
used up in either case. -/
def claim (c : Claims) (server : UInt64) (component : Component) : Option UInt64 × Claims :=
  let ticket := c.lastTicket + 1
  let c := { c with lastTicket := ticket }
  match c.get? server component with
  | some ⟨_, true⟩ => (none, c)
  | _ => (some ticket, c.set server component ⟨ticket, false⟩)

/-- Begin an installation, if the ticket is the newest. -/
def start (c : Claims) (server : UInt64) (component : Component) (ticket : UInt64) :
    Bool × Claims :=
  match c.get? server component with
  | some claim =>
    if claim.ticket = ticket then (true, c.set server component ⟨ticket, true⟩) else (false, c)
  | none => (false, c)

/-- An attempt has failed: the work stays claimed, but another job may take it over. -/
def pause (c : Claims) (server : UInt64) (component : Component) (ticket : UInt64) : Claims :=
  match c.get? server component with
  | some claim => if claim.ticket = ticket then c.set server component ⟨ticket, false⟩ else c
  | none => c

/-- Give the work up, if the ticket is the newest. -/
def release (c : Claims) (server : UInt64) (component : Component) (ticket : UInt64) : Claims :=
  match c.get? server component with
  | some claim =>
    if claim.ticket = ticket then { c with claims := c.claims.erase (server, component) } else c
  | none => c

end Claims

end Rampart
