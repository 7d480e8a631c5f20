import Rampart.Decision
import Rampart.Rule.Wire

/-!
# The JSON form of decisions
-/

namespace Rampart

open Json (Decoder Fields member)

instance : Encode Scope := ⟨fun scope => .str scope.name⟩

/-- A scope, by its name. -/
def Scope.decode : Decoder Scope := Json.choice Scope.named

instance : Encode Decision where
  encode d := .obj [member "ip" d.ip, member "scope" d.scope, member "type" d.kind,
    member "durationSeconds" d.duration, member "reason" d.reason]

/-- The fields of a decision. -/
def Decision.fields : Fields Decision :=
  .mk <$> .required "ip" Json.string <*> .required "scope" Scope.decode
    <*> .required "type" Action.decode <*> .required "durationSeconds" Json.word
    <*> .required "reason" Json.string

/-- A decision from its JSON form. -/
def Decision.decode : Decoder Decision := Decision.fields.decode

end Rampart
