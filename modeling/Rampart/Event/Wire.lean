import Rampart.Event
import Rampart.Rule.Wire

/-!
# The JSON form of events

The kind of an event stands among its members, under `event`. As an array, an event is its kind
followed by its fields.

* `Json.tagged` decodes a record by the kind that it names.
-/

namespace Rampart

open Json (Decoder Fault Fields member)

namespace Json

/-- The decoder of a kind. -/
def kindOf {α : Type} (kinds : List (String × Decoder α)) : Json → Except Fault (Decoder α)
  | .str kind => match kinds.lookup kind with
    | some decode => .ok decode
    | none => .error .mismatched
  | j => .error (fault j)

/-- A record whose kind is one of its members, or the first item of an array. -/
def tagged {α : Type} (tag : String) (kinds : List (String × Decoder α)) : Decoder α
  | .obj members =>
    if haveCutShort members then .error .malformed
    else if Fields.repeats [tag] members then .error .mismatched
    else match (members.find? (·.1 == tag)).map (·.2) with
      | some kind => do
        let decode ← kindOf kinds kind
        decode (.obj (members.filter (·.1 != tag)))
      | none => .error .mismatched
  | .arr items =>
    if areCutShort items then .error .malformed
    else match items with
      | kind :: fields => do
        let decode ← kindOf kinds kind
        decode (.arr fields)
      | [] => .error .mismatched
  | j => .error (fault j)

end Json

instance : Encode RuleEvent where
  encode
    | .saved rule firewall previous => .obj [member "event" "saved", member "rule_id" rule,
        member "config_id" firewall, member "previous" previous]
    | .deleted rule firewall => .obj [member "event" "deleted", member "rule" rule,
        member "config_id" firewall]
    | .firewallChanged firewall => .obj [member "event" "config_changed",
        member "config_id" firewall]

namespace RuleEvent

/-- The fields of a saved rule's event. -/
def savedFields : Fields RuleEvent :=
  .saved <$> .required "rule_id" Json.word <*> .required "config_id" Json.word
    <*> .optional "previous" Rule.decode

/-- The fields of a deleted rule's event. -/
def deletedFields : Fields RuleEvent :=
  .deleted <$> .required "rule" Rule.decode <*> .required "config_id" Json.word

/-- The fields of a firewall's event. -/
def changedFields : Fields RuleEvent :=
  .firewallChanged <$> .required "config_id" Json.word

/-- An event from its JSON form. -/
def decode : Decoder RuleEvent :=
  Json.tagged "event" [("saved", savedFields.decode), ("deleted", deletedFields.decode),
    ("config_changed", changedFields.decode)]

end RuleEvent

instance : Encode ServerEvent where
  encode
    | .created server => .obj [member "event" "created", member "server_id" server]
    | .becameReachable server => .obj [member "event" "became_reachable",
        member "server_id" server]

namespace ServerEvent

/-- The field of a server's event. -/
def serverField : Fields UInt64 :=
  .required "server_id" Json.word

/-- An event from its JSON form. -/
def decode : Decoder ServerEvent :=
  Json.tagged "event" [("created", (.created <$> serverField : Fields ServerEvent).decode),
    ("became_reachable", (.becameReachable <$> serverField : Fields ServerEvent).decode)]

end ServerEvent

end Rampart
