import Rampart.Api.MediaType
import Rampart.Api.Route
import Rampart.Alert.Wire
import Rampart.Event.Wire
import Rampart.Label.Wire
import Rampart.Orchestrator.Audit
import Rampart.Scenario.Wire
import Rampart.Store.Wire
import Rampart.Template.Wire
import Rampart.Traffic.Wire

/-!
# Answering requests

What each endpoint does and answers. A request is refused before anything is done when its path,
its kind of content or its content is wrong.

* `Api.answer` is the process that answers a request.
* `Response.ofFailure` gives the status and the body of a failure.
-/

namespace Rampart.Api

open Json (Decoder Fields member)

/-- A request. -/
structure Request where
  method : String
  path : String
  /-- The kind of content. -/
  contentType : Option String := none
  content : String := ""
deriving DecidableEq, Repr

/-- An answer; one without a body has an empty one, or a text for human readers. -/
structure Response where
  status : Nat
  body : Option Json := none

namespace Response

/-- An answer with a value. -/
def value {α : Type} [Encode α] (status : Nat) (a : α) : Response :=
  ⟨status, some (encode a)⟩

/-- The status of a failure. -/
def statusOf : Failure → Nat
  | .compilation _ => 422
  | .notFound _ => 404
  | .configuration _ | .validation _ => 400
  | _ => 500

/-- The message of a failure: a rule's fault is named without further words. -/
def messageOf : Failure → String
  | .compilation fault => fault.message
  | failure => failure.message

/-- The answer for a failure. -/
def ofFailure (failure : Failure) : Response :=
  ⟨statusOf failure, some (.obj [member "error" (messageOf failure)])⟩

/-- The answer for a result. -/
def ofResult {α : Type} [Encode α] (status : Nat) : Except Failure α → Response
  | .ok a => value status a
  | .error failure => ofFailure failure

end Response

/-! ## Content -/

/-- Whether the content of a request is JSON. -/
def Request.isJson (r : Request) : Bool :=
  match r.contentType.bind MediaType.read? with
  | some m => m.isJson
  | none => false

/-- The value of a request's content, or the status that refuses it. -/
def contentOf {α : Type} (decode : Decoder α) (r : Request) : Except Nat α :=
  if !r.isJson then .error 415
  else match Json.decodeFront decode r.content with
    | .ok a => .ok a
    | .error .malformed => .error 400
    | .error .mismatched => .error 422

/-- Refuse a request whose path names something that is no text. -/
def named (part : Part) : Except Nat String :=
  match part with
  | some text => .ok text
  | none => .error 400

/-- The number that a part of a path names. -/
def numbered (part : Part) : Except Nat UInt64 := do
  match Text.Decimal.word? (← named part).toList with
  | some n => .ok n
  | none => .error 400

/-! ## Contents of requests -/

/-- The fields of a new application. -/
def applicationFields : Fields (Application × Firewall) :=
  .mk <$> .required "application" Application.decode <*> .required "firewall" Firewall.decode

/-- The fields of a list of countries. -/
def countryFields : Fields (List String) :=
  .required "countries" (Json.list Json.string)

/-- The server of a request: user and port have defaults. -/
def newServer (id : UInt64) (name host : String) (user : Option String) (port : Option UInt16) :
    Server :=
  let server : Server := { id, name, host }
  { server with user := user.getD server.user, port := port.getD server.port }

/-- The fields of a new server. -/
def serverFields : Fields Server :=
  newServer <$> .required "id" Json.word <*> .required "name" Json.string
    <*> .required "host" Json.string <*> .orNull "user" Json.string
    <*> .orNull "port" Json.word16

/-! ## Endpoints -/

/-- A process that answers. -/
abbrev Answering := Process Orchestrator Response

/-- An answer by one look at the state. -/
def look (f : Orchestrator → Response) : Answering :=
  Process.read f

/-- An answer by one step on the state. -/
def act {α : Type} [Encode α] (status : Nat) (f : Orchestrator → Except Failure α × Orchestrator) :
    Answering :=
  (Process.modifyGet f).bind fun result => .done (.ofResult status result)

/-- How many servers there are, and for how long the program has run. -/
def health : Answering :=
  .clock fun now => look fun s => .value 200 (Json.obj [member "status" "healthy",
    member "servers" s.registry.list.length,
    member "uptime_seconds" ((now.since s.startedAt).tdiv 1000000000)])

/-- Take in an application. -/
def register (application : Application) (firewall : Firewall) : Answering :=
  act 201 fun s =>
    let (result, s) := s.register application firewall
    (result.map fun _ => application, s)

/-- The labels of an application. -/
def labelsOf (uuid : String) : Answering :=
  look fun s => .ofResult 200 do
    let c ← s.contextFor uuid
    let maker : LabelMaker := ⟨s.settings.bouncer, s.settings.engine⟩
    return maker.labels ⟨c.uuid, c.firewall, c.server.status.appsecAvailable, c.hasPathOnlyRule⟩

/-- The scenario files that the next sync would write. -/
def preview (uuid : String) : Answering :=
  look fun s => .ofResult 200 do
    let c ← s.contextFor uuid
    Failure.ofRule (c.files s.settings.scenarios)

/-- Save a rule that has first to be made. -/
def saveMade (uuid : String) (rule : Except Failure Rule) : Answering :=
  match rule with
  | .ok rule => act 201 (·.saveRule uuid rule)
  | .error failure => .done (.ofFailure failure)

/-- The alerts of an application, newest first. -/
def alertsOf (uuid : String) : Answering :=
  look fun s => .ofResult 200 do
    let _ ← s.store.application uuid
    return s.feeds.newestFirst uuid

/-- The traffic of an application. -/
def trafficOf (uuid : String) : Answering :=
  look fun s => .ofResult 200 do
    let _ ← s.store.application uuid
    match s.traffic.snapshot uuid with
    | .ok t => return t
    | .error fault => throw (.validation fault.message)

/-- Count reported requests. -/
def countRecords (records : List TrafficRecord) : Answering :=
  act 200 fun s =>
    let counters := records.foldl (fun cs r => cs.tick (.requests r.outcome)) s.counters
    (.ok (Json.obj [member "accepted" records.length]),
     { s with traffic := s.traffic.ingest records, counters })

/-- Take in a server and announce it. -/
def addServer (server : Server) : Answering :=
  act 201 fun s => match s.registry.get? server.id with
    | some _ => (.error (.validation s!"server {server.id} already registered"), s)
    | none => (.ok server, ((s.addServer server).announceServer (.created server.id)).2)

/-- Announce that a server can be worked on. -/
def announceReachable (id : UInt64) : Answering :=
  Process.modifyGet fun s => match s.server id with
    | .ok _ => (⟨202, none⟩, (s.announceServer (.becameReachable id)).2)
    | .error failure => (.ofFailure failure, s)

/-- What an endpoint does, or the status that refuses the request. -/
def serve (r : Request) : Endpoint → Except Nat Answering
  | .health => return health
  | .applications => do
    let (application, firewall) ← contentOf applicationFields.decode r
    return register application firewall
  | .firewall uuid => do
    let uuid ← named uuid
    let u ← contentOf FirewallUpdate.decode r
    return act 200 (·.updateFirewall uuid u)
  | .labels uuid => do return labelsOf (← named uuid)
  | .rules uuid => do
    let uuid ← named uuid
    return saveMade uuid (.ok (← contentOf Rule.decode r))
  | .rule uuid id => do
    let uuid ← named uuid
    let id ← numbered id
    return act 200 (·.deleteRule uuid id)
  | .scenarios uuid => do return preview (← named uuid)
  | .audit uuid => do
    return (Audit.run (← named uuid)).process.bind fun result => .done (.ofResult 200 result)
  | .template uuid key => do
    let uuid ← named uuid
    return saveMade uuid ((Template.find (← named key)).map Template.rule)
  | .geoBlock uuid => do
    let uuid ← named uuid
    return saveMade uuid (geoBlockRule (← contentOf countryFields.decode r))
  | .alerts uuid => do return alertsOf (← named uuid)
  | .traffic uuid => do return trafficOf (← named uuid)
  | .templates => return .done (.value 200 Template.catalog)
  | .servers => do return addServer (← contentOf serverFields.decode r)
  | .server id => do
    let id ← numbered id
    return look fun s => .ofResult 200 (s.server id)
  | .reachable id => do return announceReachable (← numbered id)
  | .trafficRecords => do
    return countRecords (← contentOf (Json.list TrafficRecord.fields.decode) r)

/-- The methods, by their names. -/
def methods : List (String × Method) :=
  [("GET", .get), ("HEAD", .get), ("POST", .post), ("PUT", .put), ("DELETE", .delete)]

/-- Answer a request. A request for options is always answered, and one for the head of an answer
is carried out like one for all of it. -/
def answer (r : Request) : Answering :=
  if r.method = "OPTIONS" then .done ⟨200, none⟩
  else match Endpoint.ofPath? r.path with
    | none => .done ⟨404, none⟩
    | some endpoint =>
      if methods.lookup r.method = some endpoint.method then
        match serve r endpoint with
        | .ok p => if r.method = "HEAD" then p.bind fun a => .done { a with body := none } else p
        | .error status => .done ⟨status, none⟩
      else .done ⟨405, none⟩

end Rampart.Api
