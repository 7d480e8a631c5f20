import Rampart.Json.Decode
import Rampart.Json.Encode
import Rampart.Rule

/-!
# The JSON form of rules and firewalls

One encoder and one decoder per type; members are written in the order of the fields.
-/

namespace Rampart

open Json (Decoder Fields member)

instance : Encode Mode := ⟨fun mode => .str mode.name⟩
instance : Encode Action := ⟨fun action => .str action.name⟩
instance : Encode Joiner := ⟨fun joiner => .str joiner.name⟩

/-- A mode, by its name. -/
def Mode.decode : Decoder Mode := Json.choice Mode.named

/-- An action, by its name. -/
def Action.decode : Decoder Action := Json.choice Action.named

/-- A joiner, by its name. -/
def Joiner.decode : Decoder Joiner := Json.choice Joiner.named

instance : Encode Condition where
  encode c := .obj [member "field" c.field, member "operator" c.operator, member "value" c.value]

/-- The fields of a condition. -/
def Condition.fields : Fields Condition :=
  .mk <$> .required "field" Json.string <*> .required "operator" Json.string
    <*> .required "value" Json.string

instance : Encode Rule where
  encode r := .obj [member "id" r.id, member "config_id" r.firewallId, member "name" r.name,
    member "description" r.description, member "protection_mode" r.mode,
    member "action" r.action, member "enabled" r.enabled,
    member "logical_operator" r.joiner, member "conditions" r.conditions,
    member "priority" r.priority, member "remediation_duration" r.duration]

/-- The fields of a rule. -/
def Rule.fields : Fields Rule :=
  .mk <$> .withDefault "id" Json.word 0 <*> .withDefault "config_id" Json.word 0
    <*> .required "name" Json.string <*> .optional "description" Json.string
    <*> .required "protection_mode" Mode.decode <*> .required "action" Action.decode
    <*> .withDefault "enabled" Json.boolean true
    <*> .withDefault "logical_operator" Joiner.decode .and
    <*> .required "conditions" (Json.list Condition.fields.decode)
    <*> .withDefault "priority" Json.signed32 0
    <*> .optional "remediation_duration" Json.word

/-- A rule from its JSON form. -/
def Rule.decode : Decoder Rule := Rule.fields.decode

instance : Encode Firewall where
  encode f := .obj [member "id" f.id, member "application_id" f.applicationId,
    member "enabled" f.enabled, member "api_key" f.apiKey,
    member "ban_duration" f.banDuration, member "appsec_enabled" f.appsecEnabled,
    member "inband_enabled" f.inbandEnabled, member "bouncer_name" f.bouncerName]

/-- The fields of a firewall. -/
def Firewall.fields : Fields Firewall :=
  .mk <$> .required "id" Json.word <*> .withDefault "application_id" Json.word 0
    <*> .required "enabled" Json.boolean <*> .withDefault "api_key" Json.string ""
    <*> .withDefault "ban_duration" Json.word 14400
    <*> .withDefault "appsec_enabled" Json.boolean false
    <*> .withDefault "inband_enabled" Json.boolean false
    <*> .optional "bouncer_name" Json.string

/-- A firewall from its JSON form. -/
def Firewall.decode : Decoder Firewall := Firewall.fields.decode

instance : Encode Application where
  encode a := .obj [member "id" a.id, member "uuid" a.uuid, member "name" a.name,
    member "server_id" a.serverId]

/-- The fields of an application. -/
def Application.fields : Fields Application :=
  .mk <$> .required "id" Json.word <*> .required "uuid" Json.string
    <*> .required "name" Json.string <*> .required "server_id" Json.word

/-- An application from its JSON form. -/
def Application.decode : Decoder Application := Application.fields.decode

end Rampart
