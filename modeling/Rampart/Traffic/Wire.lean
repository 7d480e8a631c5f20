import Rampart.Json.Decode
import Rampart.Json.Encode
import Rampart.Traffic

/-!
# The JSON form of traffic counts

Counts are written with their sum, which has to be right when they are read.
-/

namespace Rampart

open Json (Decoder Fields member)

instance : Encode Outcome := ⟨fun outcome => .str outcome.name⟩

/-- An outcome, by its name. -/
def Outcome.decode : Decoder Outcome := Json.choice Outcome.named

instance : Encode Traffic where
  encode t := .obj [member "allowed" t.allowed, member "denied" t.denied,
    member "challenged" t.challenged, member "all_traffic" t.all]

/-- The fields of reported counts. -/
def Traffic.reportFields : Fields (Except TrafficFault Traffic) :=
  Traffic.ofReport <$> .required "allowed" Json.word <*> .required "denied" Json.word
    <*> .required "challenged" Json.word <*> .required "all_traffic" Json.word

/-- Counts from their JSON form. -/
def Traffic.decode : Decoder Traffic := fun j => do
  match ← Traffic.reportFields.decode j with
  | .ok t => .ok t
  | .error _ => .error .mismatched

instance : Encode TrafficRecord where
  encode r := .obj [member "app_uuid" r.uuid, member "remediation" r.remediation]

/-- The fields of a reported request. -/
def TrafficRecord.fields : Fields TrafficRecord :=
  .mk <$> .required "app_uuid" Json.string <*> .optional "remediation" Json.string

end Rampart
