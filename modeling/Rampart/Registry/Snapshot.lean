import Rampart.Registry
import Rampart.Server.Wire

/-!
# Snapshots of the registry

The servers as a text that is kept across restarts: an array of servers with one member a line.

* `Registry.snapshot` writes a registry, `Registry.ofSnapshot` reads it back.
* `Registry.load` takes what stands at the snapshot's path: without a file, there are no servers.
-/

namespace Rampart.Registry

/-- The snapshot of a registry. -/
def snapshot (r : Registry) : String :=
  (encode r.list).pretty

/-- The registry of a snapshot. -/
def ofSnapshot (text : String) : Except Failure Registry :=
  match Json.decodeText (Json.list Server.decode) text with
  | .ok servers => .ok (.ofList servers)
  | .error _ => .error (.serialization "the text is no list of servers")

/-- What stands at the path of a snapshot. -/
inductive Source
  | missing
  | directory
  | text (contents : String)

/-- The registry that was kept. -/
def load : Source → Except Failure Registry
  | .missing => .ok {}
  | .directory => .error (.transport "Is a directory (os error 21)")
  | .text contents => ofSnapshot contents

end Rampart.Registry
