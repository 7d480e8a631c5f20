import Rampart.Rule.Wire
import Rampart.Template

/-!
# The JSON form of templates
-/

namespace Rampart

open Json (member)

instance : Encode Template where
  encode t := .obj [member "key" t.key, member "category" t.kind.name, member "name" t.name,
    member "description" t.description, member "protection_mode" t.mode,
    member "action" t.action, member "logical_operator" t.joiner,
    member "conditions" t.conditions, member "priority" t.priority,
    member "remediation_duration" t.duration]

end Rampart
