import Rampart.Bus
import Rampart.Event.Wire

/-!
# Bridging events

Events that arrive as texts from a message broker. A text that is no event is dropped.

* `Bridge.eventsOf` gives the events of the texts that arrive, in order.
* `Bridge.publish` puts them on a bus.
-/

namespace Rampart.Bridge

open Json (Decoder)

variable {ε : Type}

/-- The event of a text that has arrived. -/
def event? (decode : Decoder ε) (payload : String) : Option ε :=
  (Json.decodeText decode payload).toOption

/-- The events of texts that have arrived. -/
def eventsOf (decode : Decoder ε) (payloads : List String) : List ε :=
  payloads.filterMap (event? decode)

/-- Put the events of texts that have arrived on a bus. -/
def publish (decode : Decoder ε) (payloads : List String) (b : Bus ε) : Bus ε :=
  (eventsOf decode payloads).foldl (fun b e => (b.publish e).2) b

end Rampart.Bridge
