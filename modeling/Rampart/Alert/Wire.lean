import Rampart.Alert

/-!
# The JSON form of alerts
-/

namespace Rampart

open Json (Decoder Fields member)

instance : Encode AlertType := ⟨fun kind => .str kind.name⟩
instance : Encode Severity := ⟨fun severity => .str severity.name⟩

instance : Encode Alert where
  encode a := .obj [member "id" a.id, member "application_id" a.applicationId,
    member "app_uuid" a.uuid, member "server_id" a.serverId,
    member "engine_alert_id" a.engineAlertId, member "alert_type" a.kind,
    member "severity" a.severity, member "ip_address" a.ip, member "scenario" a.scenario,
    member "message" a.message, member "decisions" a.decisions,
    member "observed_at" a.observedAt]

/-- The fields of an alert. -/
def Alert.fields : Fields Alert :=
  .mk <$> .required "id" Json.word <*> .required "application_id" Json.word
    <*> .required "app_uuid" Json.string <*> .required "server_id" Json.word
    <*> .required "engine_alert_id" Json.word
    <*> .required "alert_type" (Json.choice AlertType.named)
    <*> .required "severity" (Json.choice Severity.named)
    <*> .required "ip_address" Json.string <*> .required "scenario" Json.string
    <*> .required "message" Json.string <*> .required "decisions" Json.word
    <*> .required "observed_at" Instant.decode

/-- An alert from its JSON form. -/
def Alert.decode : Decoder Alert := Alert.fields.decode

end Rampart
