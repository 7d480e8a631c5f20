import Rampart.Server
import Rampart.Time.Wire

/-!
# The JSON form of servers

* A step of a server's set-up is an object with its name under `state` and, for the steps that
  concern one, a component under `component`. Steps without a component take `null` there.
-/

namespace Rampart

open Json (Decoder Fields Fault member)

instance : Encode Component := ⟨fun component => .str component.name⟩

/-- A component, by its name. -/
def Component.decode : Decoder Component := Json.choice Component.named

instance : Encode Health where
  encode h := .obj [member "healthy" h.healthy, member "message" h.message]

/-- The fields of a check's result. -/
def Health.fields : Fields Health :=
  .mk <$> .required "healthy" Json.boolean <*> .required "message" Json.string

instance : Encode Status where
  encode s := .obj [member "crowdsec_installed" s.engineInstalled,
    member "crowdsec_available" s.engineAvailable, member "appsec_available" s.appsecAvailable,
    member "traefik_logging_enabled" s.requestLogging,
    member "header_logging_enabled" s.headerLogging,
    member "log_shipping_configured" s.logShipping,
    member "traffic_logger_installed" s.trafficLogger,
    member "installation_validated" s.validated,
    member "last_validation_at" s.validatedAt,
    ("validation_details", .obj (s.details.map fun (name, health) => (name, encode health)))]

/-- The fields of a status. -/
def Status.fields : Fields Status :=
  .mk <$> .required "crowdsec_installed" Json.boolean
    <*> .required "crowdsec_available" Json.boolean
    <*> .required "appsec_available" Json.boolean
    <*> .required "traefik_logging_enabled" Json.boolean
    <*> .required "header_logging_enabled" Json.boolean
    <*> .required "log_shipping_configured" Json.boolean
    <*> .required "traffic_logger_installed" Json.boolean
    <*> .required "installation_validated" Json.boolean
    <*> .orNull "last_validation_at" Instant.decode
    <*> .withDefault "validation_details" (Json.dictionary Health.fields.decode) []

/-- A status from its JSON form. -/
def Status.decode : Decoder Status := Status.fields.decode

namespace Progress

/-- The name of a step. -/
def name : Progress → String
  | requested => "requested"
  | installing _ => "installing"
  | validating => "validating"
  | validated => "validated"
  | failed _ => "failed"

/-- The component that a step concerns. -/
def component? : Progress → Option Component
  | installing component => some component
  | failed component => some component
  | _ => none

/-- A step of a name, which takes the text of its component. -/
abbrev Maker := Option Json → Except Fault Progress

/-- A step without a component. -/
def bare (step : Progress) : Maker
  | none => .ok step
  | some j => (Json.nothing j).map fun _ => step

/-- A step that concerns a component. -/
def about (step : Component → Progress) : Maker
  | none => .error .mismatched
  | some j => (Component.decode j).map step

/-- Every step by its name. -/
def makers : List (String × Maker) :=
  [("requested", bare .requested), ("installing", about .installing),
   ("validating", bare .validating), ("validated", bare .validated), ("failed", about .failed)]

/-- A step from its JSON form. -/
def decode : Decoder Progress
  | .obj members =>
    if Fields.repeats ["state", "component"] members then .error .mismatched
    else
      let find := fun name => (members.find? (·.1 == name)).map (·.2)
      let cut := Json.haveCutShort members
      match find "state" with
      | none => .error (if cut then .malformed else .mismatched)
      | some state => do
        let make ← Json.choice makers state
        let step ← match find "component" with
          | none => if cut then .error .malformed else make none
          | some j => make (some j)
        if cut then .error .malformed else .ok step
  | .arr items => match items with
    | [state, component] => do
      let make ← Json.choice makers state
      make (some component)
    | _ => .error (if Json.areCutShort items then .malformed else .mismatched)
  | j => .error (Json.fault j)

end Progress

instance : Encode Progress where
  encode p := .obj (member "state" p.name :: match p.component? with
    | some component => [member "component" component]
    | none => [])

instance : Encode Server where
  encode s := .obj [member "id" s.id, member "name" s.name, member "host" s.host,
    member "user" s.user, member "port" s.port, member "status" s.status,
    member "state" s.progress]

/-- The fields of a server. -/
def Server.fields : Fields Server :=
  .mk <$> .required "id" Json.word <*> .required "name" Json.string
    <*> .required "host" Json.string <*> .withDefault "user" Json.string "root"
    <*> .withDefault "port" Json.word16 22 <*> .withDefault "status" Status.decode {}
    <*> .withDefault "state" Progress.decode .requested

/-- A server from its JSON form. -/
def Server.decode : Decoder Server := Server.fields.decode

end Rampart
