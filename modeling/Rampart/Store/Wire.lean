import Rampart.Json.Decode
import Rampart.Store

/-!
# The JSON form of updates
-/

namespace Rampart

open Json (Decoder Fields)

/-- The fields of an update of a firewall. -/
def FirewallUpdate.fields : Fields FirewallUpdate :=
  .mk <$> .orNull "enabled" Json.boolean <*> .orNull "api_key" Json.string
    <*> .orNull "ban_duration" Json.word <*> .orNull "appsec_enabled" Json.boolean
    <*> .orNull "inband_enabled" Json.boolean

/-- An update of a firewall from its JSON form. -/
def FirewallUpdate.decode : Decoder FirewallUpdate := FirewallUpdate.fields.decode

end Rampart
