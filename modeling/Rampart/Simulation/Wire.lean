import Rampart.Json.Decode
import Rampart.Orchestrator.Deployment
import Rampart.Simulation.Scripted
import Rampart.Server.Wire
import Rampart.Settings.Wire

/-!
# The JSON form of what happens

How calls, notices, plans and events are written down.
-/

namespace Rampart

open Json (member)
open Simulation (Happening JobNote)

/-- What happened, with its time. -/
def Simulation.Happening.members : Happening → List (String × Json)
  | .called server (.run commands) => [member "server" server, member "exec" commands]
  | .called server (.upload path contents) =>
    [member "server" server, member "upload" path, member "contents" contents]
  | .told (.redeploy application rebuild) =>
    [member "redeploy" application, member "force_rebuild" rebuild]
  | .told (.failed server component failure) =>
    [member "failure" component, member "server" server.id, member "message" failure.message]

/-- What happened, with its times. -/
def Simulation.logOf (history : List (Nat × Happening)) : Json :=
  encode (history.map fun (time, h) => Json.obj (member "t" time :: h.members))

/-- What a scripted job noted. -/
def Simulation.JobNote.members : JobNote → List (String × Json)
  | .began name attempt => [member "job" name, member "attempt" attempt]
  | .failed name failure => [member "job" name, member "failed" failure.message]

/-- What scripted jobs noted, with its times. -/
def Simulation.notesOf (notes : List (Nat × JobNote)) : Json :=
  encode (notes.map fun (time, n) => Json.obj (member "t" time :: n.members))

instance : Encode DeployAction where
  encode
    | .skipped reason => .obj [member "skipped" reason]
    | .provision firewall => .obj [member "provision" firewall]
    | .applyDecisions rule => .obj [member "decisions" rule]
    | .removeDecisions rule count => .obj [member "remove" rule, member "count" count]
    | .sync firewall generation redeploy => .obj [member "sync" firewall,
        member "generation" generation, member "redeploy" redeploy]

instance : Encode Queue := ⟨fun queue => .str queue.name⟩

instance : Encode InstallStep where
  encode s := .obj [member "component" s.component, member "offset" s.offset,
    member "queue" s.queue, member "retry" s.retry]

instance {ε : Type} [Encode ε] : Encode (Received ε) where
  encode
    | .event e => encode e
    | .lagged n => .obj [member "lagged" n]
    | .waiting => .str "waiting"
    | .closed => .str "closed"

end Rampart
