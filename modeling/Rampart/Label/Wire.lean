import Rampart.Json.Encode
import Rampart.Label

/-!
# The JSON form of label sets

Labels are written as pairs, since their order matters.
-/

namespace Rampart

open Json (member)

instance : Encode LabelSet where
  encode s := .obj [member "labels" (s.labels.map fun (key, value) => [key, value]),
    member "middlewares" s.middlewares]

end Rampart
