import Rampart.Json.Decode
import Rampart.Json.Encode
import Rampart.Time.Instant

/-!
# The JSON form of time stamps

A time stamp is written as its text.
-/

namespace Rampart

instance : Encode Instant := ⟨fun i => .str i.toText⟩

/-- A time stamp from its text. -/
def Instant.decode : Json.Decoder Instant := fun j => do
  match Instant.parse? (← Json.string j) with
  | some i => .ok i
  | none => .error .mismatched

end Rampart
