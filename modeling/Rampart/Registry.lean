import Rampart.Failure
import Rampart.Server

/-!
# The registry of servers

All managed servers, with updates that each write only what they own: jobs that work on one server
side by side never undo each other's results.

* `StatusUpdate` is one update, `Server.update` what it does to a server.
* `Registry.get?` looks a server up, `Registry.list` gives all in order of their numbers.
* `Registry.apply` updates a server that is known.
-/

namespace Rampart

/-- An update of a server's status. -/
inductive StatusUpdate
  /-- How the installation of a component ended. -/
  | installed (component : Component) (value : Bool)
  /-- Whether inspection can be reached; the engine's installation finds out. -/
  | appsec (available : Bool)
  /-- The result of a component's check. -/
  | checked (component : Component) (health : Health)
  /-- The summary of a validation pass. -/
  | completed (validated : Bool) (time : Instant)
  | progress (step : Progress)
deriving DecidableEq, Repr

/-- Insert or replace the result of a component's check, in order of the names. -/
def insertHealth (name : String) (health : Health) :
    List (String × Health) → List (String × Health)
  | [] => [(name, health)]
  | (other, kept) :: details =>
    if name = other then (name, health) :: details
    else if name < other then (name, health) :: (other, kept) :: details
    else (other, kept) :: insertHealth name health details

namespace Status

/-- Write the flags of a component and the result of its check. -/
def check (status : Status) (component : Component) (health : Health) : Status :=
  let marked := component.mark health.healthy status
  { marked with details := insertHealth component.name health marked.details }

end Status

namespace Server

/-- A server after an update. -/
def update (s : Server) : StatusUpdate → Server
  | .installed component value => { s with status := component.mark value s.status }
  | .appsec available =>
    { s with status := { s.status with
        appsecAvailable := available && s.status.engineAvailable } }
  | .checked component health => { s with status := s.status.check component health }
  | .completed validated time =>
    { s with status := { s.status with validated := validated, validatedAt := some time } }
  | .progress step => { s with progress := step }

end Server

/-- The servers, in order of their numbers, each number once. -/
structure Registry where
  servers : List Server := []
deriving DecidableEq, Repr, Inhabited

namespace Registry

/-- Insert or replace a server in a list in order of their numbers. -/
def insertInto (server : Server) : List Server → List Server
  | [] => [server]
  | other :: others =>
    if server.id = other.id then server :: others
    else if server.id < other.id then server :: other :: others
    else other :: insertInto server others

/-- Add a server; one of the same number is replaced. -/
def insert (r : Registry) (server : Server) : Registry :=
  ⟨insertInto server r.servers⟩

/-- A registry of servers; the last of those with one number is kept. -/
def ofList (servers : List Server) : Registry :=
  servers.foldl insert {}

/-- All servers. -/
def list (r : Registry) : List Server :=
  r.servers

/-- The server of a number, if there is one. -/
def get? (r : Registry) (id : UInt64) : Option Server :=
  r.servers.find? (·.id == id)

/-- The server of a number. -/
def get (r : Registry) (id : UInt64) : Except Failure Server :=
  match r.get? id with
  | some server => .ok server
  | none => .error (.notFound s!"server {id}")

/-- Update a server. -/
def apply (r : Registry) (id : UInt64) (u : StatusUpdate) : Except Failure (Server × Registry) :=
  match r.get? id with
  | some server =>
    let updated := server.update u
    .ok (updated, r.insert updated)
  | none => .error (.notFound s!"server {id}")

end Registry

end Rampart
