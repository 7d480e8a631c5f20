import Rampart.Json.Decode
import Rampart.Json.Encode
import Rampart.Time.Wire

/-!
# What the engine reports

Decisions and alerts as the engine lists them, and the reading of its listings.

* `Engine.alertsIn` reads a listing of alerts; an empty one may be blank or `null`.
* `Engine.decisionsIn` reads the decisions out of one, `Engine.scenariosIn` a listing of scenarios.
-/

namespace Rampart.Engine

open Json (Decoder Fields member)

/-- A decision, as the engine reports it. -/
structure Decision where
  id : UInt64
  origin : String := ""
  kind : String
  scope : String
  value : String
  duration : String := ""
  /-- The reason given when the decision was made. -/
  scenario : String := ""
deriving DecidableEq, Repr, Inhabited

/-- Where the traffic of an alert came from. -/
structure Source where
  ip : Option String := none
  value : Option String := none
deriving DecidableEq, Repr, Inhabited

/-- One more fact about an alert. -/
structure Meta where
  key : String
  value : String
deriving DecidableEq, Repr, Inhabited

/-- An alert, as the engine reports it. -/
structure Alert where
  id : UInt64 := 0
  scenario : String := ""
  source : Option Source := none
  decisions : Option (List Decision) := none
  eventsCount : UInt64 := 0
  createdAt : Option Instant := none
  facts : Option (List Meta) := none
deriving DecidableEq, Repr, Inhabited

namespace Alert

/-- The address that the alert is about: never an empty one. -/
def sourceIp? (a : Alert) : Option String :=
  match a.source with
  | some source => (source.ip <|> source.value).filter (!·.isEmpty)
  | none => none

/-- The first fact of a key. -/
def fact? (a : Alert) (key : String) : Option String :=
  ((a.facts.getD []).find? (·.key == key)).map (·.value)

/-- The decisions that the alert led to. -/
def decisionList (a : Alert) : List Decision :=
  a.decisions.getD []

end Alert

/-! ## JSON -/

/-- The fields of a decision. -/
def Decision.fields : Fields Decision :=
  .mk <$> .required "id" Json.word <*> .withDefault "origin" Json.string ""
    <*> .required "type" Json.string <*> .required "scope" Json.string
    <*> .required "value" Json.string <*> .withDefault "duration" Json.string ""
    <*> .withDefault "scenario" Json.string ""

instance : Encode Decision where
  encode d := .obj [member "id" d.id, member "origin" d.origin, member "type" d.kind,
    member "scope" d.scope, member "value" d.value, member "duration" d.duration,
    member "scenario" d.scenario]

/-- The fields of a source. -/
def Source.fields : Fields Source :=
  .mk <$> .optional "ip" Json.string <*> .optional "value" Json.string

/-- The fields of a fact. -/
def Meta.fields : Fields Meta :=
  .mk <$> .required "key" Json.string <*> .required "value" Json.string

/-- The fields of an alert. -/
def Alert.fields : Fields Alert :=
  .mk <$> .withDefault "id" Json.word 0 <*> .withDefault "scenario" Json.string ""
    <*> .optional "source" Source.fields.decode
    <*> .optional "decisions" (Json.list Decision.fields.decode)
    <*> .withDefault "events_count" Json.word 0
    <*> .optional "created_at" Instant.decode
    <*> .optional "meta" (Json.list Meta.fields.decode)

/-- The fields of an entry of a listing of scenarios. -/
def scenarioFields : Fields String :=
  .required "name" Json.string

/-- The fields of a listing of scenarios. -/
def scenarioListFields : Fields (List String) :=
  .withDefault "scenarios" (Json.list scenarioFields.decode) []

/-! ## Listings -/

/-- The alerts of a listing. -/
def alertsIn (output : String) : Option (List Alert) :=
  let text := Text.trimmed output
  if text.isEmpty || text == "null" then some []
  else match Json.decodeText (Json.nullable (Json.list Alert.fields.decode)) text with
    | .ok alerts => some (alerts.getD [])
    | .error _ => none

/-- The decisions of a listing of alerts. -/
def decisionsIn (output : String) : Option (List Decision) :=
  (alertsIn output).map fun alerts => alerts.flatMap Alert.decisionList

/-- The names of a listing of scenarios. -/
def scenariosIn (output : String) : Option (List String) :=
  (Json.decodeText scenarioListFields.decode (Text.trimmed output)).toOption

end Rampart.Engine
